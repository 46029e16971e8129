import TransitPush.Hub
import TransitPush.Settings.Basic
import TransitPush.Store.Memory
/-!
# Start-up

From settings to a hub and the address to listen at. A topology that cannot be loaded is reported
first, then an address that is none.
-/
namespace TransitPush

inductive StartError where
  | topologyUnreadable (path : String)
  | topologyMalformed (path : String)
  | badAddress (address : String)
deriving DecidableEq

def StartError.message : StartError → String
  | .topologyUnreadable path => "Failed to read topology file: " ++ path
  | .topologyMalformed path => "Failed to parse topology file: " ++ path
  | .badAddress address => "Invalid host:port " ++ address

namespace Settings

/-- The topology of the file that the settings name; without one there are no stations. Mirrors
`load_topology`. -/
def topology (s : Settings) (files : Files) : Except StartError Topology :=
  match s.topologyFile with
  | none => .ok .empty
  | some path =>
    match files path with
    | none => .error (.topologyUnreadable path)
    | some contents => (Topology.decode contents).mapError fun _ => .topologyMalformed path

/-- A hub without subscriptions. The supplies name subscriptions and events without a number. -/
def hub {τ : Type} (s : Settings) (topology : Topology) (ids fresh : Supply) (transport : τ) :
    Hub MemoryStore τ where
  courier := ⟨⟨.empty, ∅, ids, s.failureLimit⟩, transport, ∅, []⟩
  topology := topology
  routes := ∅
  dedup := .empty s.dedupTtl fresh
  accepted := s.accepted.toList
  planner := .ofInterval s.checkInterval

/-- The hub of a server and the address it listens at. Mirrors `run_server` up to the first socket. -/
def start {τ : Type} (s : Settings) (files : Files) (ids fresh : Supply) (transport : τ) :
    Except StartError (Hub MemoryStore τ × SocketAddress) := do
  let topology ← s.topology files
  match s.bind? with
  | some address => .ok (s.hub topology ids fresh transport, address)
  | none => .error (.badAddress s.address)

end Settings
end TransitPush
