import TransitPush.Delivery.Pool
import TransitPush.Delivery.Sweep
import TransitPush.Json.Value
import TransitPush.Net.Socket
import TransitPush.Registry
import TransitPush.Routing.Dedup
import TransitPush.Settings.Toml
/-!
# Settings

What can be set for a server, in a TOML document or by the environment. A setting that is absent has
its default; one of the wrong type or out of range makes the whole document bad.

* `Settings.ofDocument?`: the settings of a document.
* `Settings.load`: the settings of the file that is named, or else of the first that exists.
* `Settings.bind?`: the address that the server listens at.
-/
namespace TransitPush

structure Settings where
  host : String
  port : UInt16
  workers : UInt64
  requestTimeoutMillis : UInt64
  failureLimit : UInt32
  dedupSeconds : UInt64
  evictSeconds : UInt64
  routeSeconds : UInt64
  sweepMillis : UInt64
  checkSeconds : UInt64
  accepted : RefSet
  topologyFile : Option String
  metricsEnabled : Bool
  metricsPort : UInt16
deriving DecidableEq

abbrev Environment := String → Option String

abbrev Files := String → Option String

namespace Settings

/-! ## Defaults -/

/-- A number from the environment, unless it is absent or out of range. Mirrors `env_or`. -/
def envNat (env : Environment) (key : String) (bound default : Nat) : Nat :=
  ((env key).bind fun s => Text.natBelow? bound s.toList).getD default

/-- The settings where nothing is set but by the environment. -/
def defaults (env : Environment) : Settings where
  host := (env "FERRY_HOST").getD "127.0.0.1"
  port := (envNat env "FERRY_PORT" UInt16.size 8080).toUInt16
  workers := (envNat env "FERRY_DELIVERY_WORKERS" UInt64.size Pool.defaultWorkers).toUInt64
  requestTimeoutMillis := 10000
  failureLimit := defaultFailureLimit
  dedupSeconds := DedupCache.defaultTtl.seconds
  evictSeconds := 300
  routeSeconds := 86400
  sweepMillis := 60000
  checkSeconds := Planner.defaultCheckInterval.seconds
  accepted := ∅
  topologyFile := none
  metricsEnabled := true
  metricsPort := (envNat env "FERRY_METRICS_PORT" UInt16.size 9090).toUInt16

/-! ## Documents -/

def textOf? : Toml.Value → Option String
  | .text s => some s
  | _ => none

def natOf? (bound : Nat) : Toml.Value → Option Nat
  | .whole n => if 0 ≤ n ∧ n < bound then some n.toNat else none
  | _ => none

def boolOf? : Toml.Value → Option Bool
  | .bool b => some b
  | _ => none

/-- A list of texts, as a set. -/
def textsOf? : Toml.Value → Option RefSet
  | .list vs => (vs.mapM textOf?).map .ofList
  | _ => none

/-- The value of a key read by `read`, or the default if the key is absent. -/
def setting? {α : Type} (entries : Toml.Entries) (key : String) (read : Toml.Value → Option α)
    (default : α) : Option α :=
  match entries.lookup key with
  | some v => read v
  | none => some default

/-- The keys of a section. It is a table, or the list of its first values; a section that is not
there has no keys, and a single value is none. -/
def section? (d : Toml.Document) (name : String) (keys : List String) : Option Toml.Entries :=
  match d.value? name with
  | none => some ((d.table? name).getD [])
  | some (.list vs) => some (keys.zip vs)
  | some _ => none

/-- The keys before the first header. No table may have the name of one that is a single value. -/
def rootEntries? (d : Toml.Document) (values : List String) : Option Toml.Entries :=
  if values.any fun name => (d.table? name).isSome then none else some d.root

/-- The settings of a document. Keys and tables that mean nothing are passed over. -/
def ofDocument? (env : Environment) (d : Toml.Document) : Option Settings := do
  let s := defaults env
  let root ← rootEntries? d ["host", "port"]
  let delivery ← section? d "delivery" ["workers", "request_timeout_ms", "max_failed_pushes"]
  let dedup ← section? d "dedup" ["ttl_secs", "evict_interval_secs"]
  let routes ← section? d "live_routes" ["ttl_secs"]
  let heartbeat ← section? d "heartbeat" ["sweep_interval_ms", "termination_check_interval_secs"]
  let router ← section? d "router" ["accepted_producers"]
  let topology ← section? d "topology" ["file"]
  let metrics ← section? d "metrics" ["enabled", "port"]
  let seconds (entries : Toml.Entries) (key : String) (default : UInt64) : Option UInt64 :=
    (setting? entries key (natOf? UInt64.size) default.toNat).map Nat.toUInt64
  let port (entries : Toml.Entries) (default : UInt16) : Option UInt16 :=
    (setting? entries "port" (natOf? UInt16.size) default.toNat).map Nat.toUInt16
  some {
    host := ← setting? root "host" textOf? s.host
    port := ← port root s.port
    workers := ← seconds delivery "workers" s.workers
    requestTimeoutMillis := ← seconds delivery "request_timeout_ms" s.requestTimeoutMillis
    failureLimit := (← setting? delivery "max_failed_pushes" (natOf? UInt32.size)
      s.failureLimit.toNat).toUInt32
    dedupSeconds := ← seconds dedup "ttl_secs" s.dedupSeconds
    evictSeconds := ← seconds dedup "evict_interval_secs" s.evictSeconds
    routeSeconds := ← seconds routes "ttl_secs" s.routeSeconds
    sweepMillis := ← seconds heartbeat "sweep_interval_ms" s.sweepMillis
    checkSeconds := ← seconds heartbeat "termination_check_interval_secs" s.checkSeconds
    accepted := ← setting? router "accepted_producers" textsOf? s.accepted
    topologyFile := ← setting? topology "file" (fun v => (textOf? v).map some) s.topologyFile
    metricsEnabled := ← setting? metrics "enabled" boolOf? s.metricsEnabled
    metricsPort := ← port metrics s.metricsPort }

def toJson (s : Settings) : Json :=
  let num (n : UInt64) : Json := .number (.ofUInt64 n)
  .object [
    ("host", .text s.host),
    ("port", num s.port.toUInt64),
    ("delivery", .object [
      ("workers", num s.workers),
      ("request_timeout_ms", num s.requestTimeoutMillis),
      ("max_failed_pushes", num s.failureLimit.toUInt64)]),
    ("dedup", .object [
      ("ttl_secs", num s.dedupSeconds),
      ("evict_interval_secs", num s.evictSeconds)]),
    ("live_routes", .object [("ttl_secs", num s.routeSeconds)]),
    ("heartbeat", .object [
      ("sweep_interval_ms", num s.sweepMillis),
      ("termination_check_interval_secs", num s.checkSeconds)]),
    ("router", .object [("accepted_producers", .list (s.accepted.toList.map .text))]),
    ("topology", .object [("file", (s.topologyFile.map Json.text).getD .null)]),
    ("metrics", .object [
      ("enabled", .bool s.metricsEnabled),
      ("port", num s.metricsPort.toUInt64)])]

/-! ## Files -/

inductive LoadError where
  | unreadable (path : String)
  | malformed (path : String)
deriving DecidableEq

def LoadError.message : LoadError → String
  | .unreadable path => "Failed to read config file: " ++ path
  | .malformed path => "Failed to parse config file: " ++ path

/-- Mirrors `from_file`. -/
def ofFile (env : Environment) (files : Files) (path : String) : Except LoadError Settings :=
  match files path with
  | none => .error (.unreadable path)
  | some contents =>
    match (Toml.Document.ofText? contents).bind (ofDocument? env) with
    | some s => .ok s
    | none => .error (.malformed path)

/-- A path in which a tilde at the front stands for the home directory. -/
def expanded (env : Environment) (path : String) : String :=
  match path.toList, env "HOME" with
  | '~' :: rest, some home =>
    if rest.isEmpty ∨ rest.head? = some '/' then home ++ String.ofList rest else path
  | _, _ => path

/-- Where settings are looked for if no file is named. -/
def places : List String :=
  ["ferry.toml", "/etc/ferry/ferry.toml", "~/.config/ferry/ferry.toml"]

/-- The settings of the file that the environment names, or of the first that exists, or the defaults.
Mirrors `load`. -/
def load (env : Environment) (files : Files) : Except LoadError Settings :=
  match env "FERRY_CONFIG" with
  | some path => ofFile env files (expanded env path)
  | none =>
    match (places.map (expanded env)).find? fun path => (files path).isSome with
    | some path => ofFile env files path
    | none => .ok (defaults env)

/-! ## What they mean -/

def address (s : Settings) : String :=
  s.host ++ ":" ++ toString s.port.toNat

/-- The address that the server listens at, if host and port make one. Mirrors `bind_addr`. -/
def bind? (s : Settings) : Option SocketAddress :=
  SocketAddress.ofText? s.address

def requestTimeout (s : Settings) : Interval := .ofMillis s.requestTimeoutMillis

def dedupTtl (s : Settings) : Interval := .ofSeconds s.dedupSeconds

def sweepInterval (s : Settings) : Interval := .ofMillis s.sweepMillis

def checkInterval (s : Settings) : Interval := .ofSeconds s.checkSeconds

end Settings
end TransitPush
