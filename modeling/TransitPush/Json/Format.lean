import TransitPush.Json.Document
import TransitPush.Json.Printer
/-!
# Formats

A format says how values of a type are written as JSON and read from a document. Formats of small
types are put together to formats of larger ones.

* `Format.text`, `bool`, `uint64`, `double`, `free`: the basic ones.
* `Format.list`, `option`, `both`, `filtered`: made from others.
* `Record.format`: structures, written as objects and read from objects or lists.
* `Format.choice`, `tagged`: variants, by the one member of an object or by a tag among the members.
-/
namespace TransitPush.Json

/-- How values of a type are written and read. -/
structure Format (α : Type) where
  toJson : α → Json
  read : Source → Node → Except Fault α

namespace Format

variable {α β : Type}

/-! ## Basic formats -/

def text : Format String where
  toJson := .text
  read
    | _, .text s => s
    | _, n => .error n.refusal

def bool : Format Bool where
  toJson := .bool
  read
    | _, .bool b => .ok b
    | _, n => .error n.refusal

/-- A natural number of 64 bits, without point, exponent and minus sign. -/
def uint64 : Format UInt64 where
  toJson n := .number (.ofUInt64 n)
  read
    | _, .number (.ok n) =>
      match n.natBelow? UInt64.size with
      | some k => .ok k.toUInt64
      | none => .error .mismatch
    | _, n => .error n.refusal

/-- A natural number of 32 bits, without point, exponent and minus sign. -/
def uint32 : Format UInt32 where
  toJson n := .number (.ofUInt64 n.toUInt64)
  read
    | _, .number (.ok n) =>
      match n.natBelow? UInt32.size with
      | some k => .ok k.toUInt32
      | none => .error .mismatch
    | _, n => .error n.refusal

def double : Format Double where
  toJson d := .number (.double d)
  read
    | _, .number (.ok n) =>
      match n.double? with
      | some d => .ok d
      | none => .error .mismatch
    | _, n => .error n.refusal

/-- Any value; of the members of one name the last counts, and their order does not. -/
def free : Format Json where
  toJson v := v
  read source n := (n.free source).map Json.settled

/-! ## Formats made from others -/

/-- A format whose values are read through a check; one that fails it is of the wrong shape. -/
def filtered (f : Format α) (write : β → α) (read : α → Option β) : Format β where
  toJson x := f.toJson (write x)
  read source n :=
    match f.read source n with
    | .error e => .error e
    | .ok a =>
      match read a with
      | some b => .ok b
      | none => .error .mismatch

def option (f : Format α) : Format (Option α) where
  toJson
    | none => .null
    | some x => f.toJson x
  read
    | _, .null => .ok none
    | source, n => (f.read source n).map some

/-- Every item, from left to right. -/
def readItems (f : Format α) (source : Source) : List Node → Except Fault (List α)
  | [] => .ok []
  | n :: ns => do
    let x ← f.read source n
    let xs ← readItems f source ns
    .ok (x :: xs)

def list (f : Format α) : Format (List α) where
  toJson xs := .list (xs.map f.toJson)
  read
    | source, .list items ending => do
      let source ← source.enter
      let xs ← f.readItems source items
      ending.check
      .ok xs
    | _, n => .error n.refusal

/-- A list of exactly two values. -/
def both (f : Format α) (g : Format β) : Format (α × β) where
  toJson p := .list [f.toJson p.1, g.toJson p.2]
  read
    | source, .list items ending => do
      let inner ← source.enter
      match items with
      | [] => do ending.check; .error .mismatch
      | [a] => do let _ ← f.read inner a; ending.check; .error .mismatch
      | a :: b :: rest =>
        let x ← f.read inner a
        let y ← g.read inner b
        if rest.isEmpty then
          ending.check
          .ok (x, y)
        else .error source.surplus
    | _, n => .error n.refusal

end Format

/-! ## Records -/

/-- When a member may be left out: never; in an object only; or also at the end of a list. -/
inductive Presence where
  | required
  | nullable
  | optional
deriving DecidableEq

/-- One member of a structure. Reading puts its value into a structure made so far; writing gives no
value where the member is left out. -/
structure Member (α : Type) where
  name : String
  presence : Presence
  read : Source → Node → α → Except Fault α
  write : α → Option Json

namespace Member

variable {α β : Type}

/-- A member of a format, with the values for which it is left out. -/
def field (name : String) (presence : Presence) (f : Format β) (get : α → β) (set : β → α → α)
    (leftOut : β → Bool) : Member α where
  name
  presence
  read source n x := (f.read source n).map fun v => set v x
  write x := if leftOut (get x) then none else some (f.toJson (get x))

def required (name : String) (f : Format β) (get : α → β) (set : β → α → α) : Member α :=
  field name .required f get set fun _ => false

/-- A member that is always written and may be missing when read. -/
def defaulted (name : String) (f : Format β) (get : α → β) (set : β → α → α) : Member α :=
  field name .optional f get set fun _ => false

/-- A member that is always written, `null` if absent, and may be missing in an object. -/
def nullable (name : String) (f : Format β) (get : α → Option β) (set : Option β → α → α) :
    Member α :=
  field name .nullable f.option get set fun _ => false

/-- A member that is left out when absent. -/
def optional (name : String) (f : Format β) (get : α → Option β) (set : Option β → α → α) :
    Member α :=
  field name .optional f.option get set Option.isNone

/-- A list that is left out when empty. -/
def listed (name : String) (f : Format β) (get : α → List β) (set : List β → α → α) : Member α :=
  field name .optional f.list get set List.isEmpty

end Member

/-- A structure as the row of its members, and the structure that has none of them. -/
structure Record (α : Type) where
  blank : α
  members : List (Member α)

namespace Record

variable {α : Type}

/-- The members of an object in their order. One that the record does not know is passed over, one
given twice is refused at its second name. -/
def readMembers (r : Record α) (source : Source) (seen : List String) (x : α) :
    List (Key × Node) → Except Fault (List String × α)
  | [] => .ok (seen, x)
  | (k, v) :: rest => do
    let name ← k
    match r.members.find? (·.name == name) with
    | none => do
      v.skip
      r.readMembers source seen x rest
    | some m =>
      if name ∈ seen then .error .mismatch
      else do
        let x ← m.read source v x
        r.readMembers source (name :: seen) x rest

/-- The items of a list as members in their order. -/
def readItems (source : Source) (surplus : Fault) (ending : Ending) (x : α) :
    List (Member α) → List Node → Except Fault α
  | [], [] => do
    ending.check
    .ok x
  | [], _ :: _ => .error surplus
  | m :: ms, [] => do
    ending.check
    if m.presence = .optional then readItems source surplus ending x ms [] else .error .mismatch
  | m :: ms, v :: vs => do
    let x ← m.read source v x
    readItems source surplus ending x ms vs

def read (r : Record α) (source : Source) : Node → Except Fault α
  | .object members ending => do
    let inner ← source.enter
    let (seen, x) ← r.readMembers inner [] r.blank members
    ending.check
    if r.members.all fun m => m.presence ≠ .required || seen.contains m.name then .ok x
    else .error .mismatch
  | .list items ending => do
    let inner ← source.enter
    readItems inner source.surplus ending r.blank r.members items
  | n => .error n.refusal

def write (r : Record α) (x : α) : List (String × Json) :=
  r.members.filterMap fun m => (m.write x).map fun v => (m.name, v)

def format (r : Record α) : Format α where
  toJson x := .object (r.write x)
  read := r.read

end Record

/-! ## Variants -/

/-- One variant of a type: its name, and how its content is read. -/
structure Variant (α : Type) where
  name : String
  read : Source → Node → Except Fault α

namespace Variant

variable {α β : Type}

def of (name : String) (f : Format β) (wrap : β → α) : Variant α where
  name
  read source n := (f.read source n).map wrap

def find (variants : List (Variant α)) (name : String) : Except Fault (Variant α) :=
  match variants.find? (·.name == name) with
  | some v => .ok v
  | none => .error .mismatch

end Variant

namespace Format

variable {α : Type}

/-- A variant read from the one member of an object in text. The name is judged before the value,
and the object must close right after it. -/
def readChoice (variants : List (Variant α)) (source : Source) : Node → Except Fault α
  | .object members ending => do
    let inner ← source.enter
    match members with
    | [] => do
      ending.check
      .error .malformed
    | (k, v) :: rest => do
      let name ← k
      let variant ← Variant.find variants name
      let x ← variant.read inner v
      if rest.isEmpty then
        ending.check
        .ok x
      else .error .malformed
  | .text (.error f) => .error f
  | .text (.ok _) => .error .mismatch
  | .broken b => .error b.choice
  | _ => .error .malformed

/-- A variant read from the one member of an object that is held already. -/
def readHeldChoice (variants : List (Variant α)) : Node → Except Fault α
  | .object [(k, v)] _ => do
    let name ← k
    let variant ← Variant.find variants name
    variant.read .held v
  | n => .error n.refusal

/-- A value written as an object whose one member is named for the variant. -/
def choice (variants : List (Variant α)) (write : α → String × Json) : Format α where
  toJson x := .object [write x]
  read
    | .held, n => readHeldChoice variants n
    | source, n => readChoice variants source n

/-- A tag names a variant; in a held value it may also be the variant's number. -/
def readTag (variants : List (Variant α)) : Source → Node → Except Fault (Variant α)
  | _, .text s => s.bind (Variant.find variants)
  | .held, .number (.ok n) =>
    match n.natBelow? variants.length with
    | some k =>
      match variants[k]? with
      | some v => .ok v
      | none => .error .mismatch
    | none => .error .mismatch
  | _, n => .error n.refusal

/-- The members beside the tag, and the variant that it names. The other values are held until the
variant is known. -/
def readTagged (tag : String) (variants : List (Variant α)) (source : Source)
    (chosen : Option (Variant α)) :
    List (Key × Node) → Except Fault (Option (Variant α) × List (String × Json))
  | [] => .ok (chosen, [])
  | (k, v) :: rest => do
    let name ← k
    if name = tag then
      if chosen.isSome then .error .mismatch
      else do
        let variant ← readTag variants source v
        readTagged tag variants source (some variant) rest
    else do
      let v ← v.free source
      let (chosen, members) ← readTagged tag variants source chosen rest
      .ok (chosen, (name, v) :: members)

/-- A value written as an object with a tag among its members. It is also read from a list that
begins with the tag. -/
def tagged (tag : String) (variants : List (Variant α)) (write : α → String × List (String × Json)) :
    Format α where
  toJson x := .object ((tag, .text (write x).1) :: (write x).2)
  read
    | source, .object members ending => do
      let inner ← source.enter
      let (chosen, members) ← readTagged tag variants inner none members
      ending.check
      match chosen with
      | some variant => variant.read .held (.ofJson (.object members))
      | none => .error .mismatch
    | source, .list items ending => do
      let inner ← source.enter
      match items with
      | [] => do
        ending.check
        .error .mismatch
      | first :: rest => do
        let variant ← readTag variants inner first
        let rest ← Node.freeItems inner rest
        ending.check
        variant.read .held (.ofJson (.list rest))
    | _, n => .error n.refusal

/-! ## Documents -/

/-- The value that a text holds. -/
def decode (f : Format α) (s : List UInt8) : Except Fault α :=
  (Document.parse s).decode (f.read .document)

/-- The value at the front of a text, whatever follows it. -/
def decodeFront (f : Format α) (s : List UInt8) : Except Fault α :=
  f.read .document (Document.parse s).root

def ofJson (f : Format α) (v : Json) : Except Fault α :=
  f.read .held (.ofJson v)

def encode (f : Format α) (x : α) : List UInt8 :=
  (f.toJson x).bytes

end Format
end TransitPush.Json
