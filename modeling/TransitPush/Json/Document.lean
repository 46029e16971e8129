import TransitPush.Json.Token
/-!
# Documents

A document is JSON text put in tree form as far as it goes. Reading a document is one pass from left
to right in which the first problem counts, be it bad JSON or good JSON of the wrong shape. The tree
therefore keeps a fault at the very place where the text breaks off, and a reader that walks it from
left to right meets the problems in their order.

* `Document.parse`: the tree of a row of tokens, built on a stack of open containers.
* `Node.free`: any value at all, with faults and nesting checked.
* `Node.ofJson`: a value that is held already, as a tree without faults.
-/
namespace TransitPush.Json

/-- The name of a member, or the fault met where a name should stand. -/
abbrev Key := Except Fault String

/-- How a list or object ends: with its closing bracket, or where the text breaks off. -/
inductive Ending where
  | closed
  | cut (f : Fault)
deriving DecidableEq

inductive Node where
  | null
  | bool (b : Bool)
  | number (n : Except Fault Number)
  | text (s : Except Fault String)
  | list (items : List Node) (ending : Ending)
  | object (members : List (Key × Node)) (ending : Ending)
  | broken (b : Break)

/-- A tree, and whether anything follows the value. -/
structure Document where
  root : Node
  trailing : Bool

/-! ## From tokens to the tree -/

/-- What a token is in the place of a name: nothing but a text is one. -/
def Token.key : Token → Key
  | .text s => s
  | .broken b => .error b.name
  | _ => .error .malformed

/-- An open container: a list, an object between members, or a member that waits for its value.
What it holds so far stands last first. -/
inductive Frame where
  | list (items : List Node)
  | object (members : List (Key × Node))
  | member (members : List (Key × Node)) (key : Key)

/-- What must come next: a value; the first item of a list or its end; the first name of an object
or its end; a further name; a colon; or a comma or the end of the innermost container. -/
inductive Expected where
  | value
  | firstItem
  | firstName
  | name
  | colon (key : Key)
  | separator

namespace Document

/-- The frames after a value has been completed in the innermost one. -/
def place (v : Node) : List Frame → List Frame
  | .list items :: rest => .list (v :: items) :: rest
  | .member members key :: rest => .object ((key, v) :: members) :: rest
  | frames => frames

/-- The tree of a text that breaks off with open containers. `last` is a broken value in the
innermost of them, if one stands there. -/
def cut (f : Fault) : List Frame → Option Node → Document
  | [], last => ⟨last.getD (.broken .missing), false⟩
  | .list items :: rest, last => cut f rest (some (.list (last.toList ++ items).reverse (.cut f)))
  | .object members :: rest, _ => cut f rest (some (.object members.reverse (.cut f)))
  | .member members key :: rest, last =>
    let value := last.getD (.broken .missing)
    cut f rest (some (.object ((key, value) :: members).reverse (.cut f)))

/-- A break in the place of a value. -/
def cutValue (b : Break) (frames : List Frame) : Document :=
  cut b.skipped frames (some (.broken b))

/-- A break in the place of a name: the member has a key that cannot be read, and no value. -/
def cutName (key : Key) (skipped : Fault) : List Frame → Document
  | .object members :: rest => cut skipped (.member members key :: rest) none
  | frames => cut skipped frames none

def scalar? : Token → Option Node
  | .null => some .null
  | .bool b => some (.bool b)
  | .number n => some (.number n)
  | .text s => some (.text s)
  | _ => none

/-- The break that a token makes where a value must stand. -/
def breakOf : Token → Break
  | .broken b => b
  | _ => .stray

/-- The fault of a token in the place of a name, for one who skips it. -/
def nameFault : Token → Fault
  | .broken b => b.skippedName
  | _ => .malformed

def await (key : Key) : List Frame → List Frame
  | .object members :: rest => .member members key :: rest
  | frames => frames

/-- Where one token leads: on to the next token, to a whole value, or to a text that breaks off. -/
inductive Step where
  | go (frames : List Frame) (expected : Expected)
  | whole (v : Node)
  | stop (d : Document)

def completed (v : Node) : List Frame → Step
  | [] => .whole v
  | frames => .go (place v frames) .separator

/-- A token where a value must stand. -/
def stepValue (frames : List Frame) : Token → Step
  | .openList => .go (.list [] :: frames) .firstItem
  | .openObject => .go (.object [] :: frames) .firstName
  | t =>
    match scalar? t with
    | some v => completed v frames
    | none => .stop (cutValue (breakOf t) frames)

/-- A token where a name must stand. -/
def stepName (frames : List Frame) : Token → Step
  | .text s => .go frames (.colon s)
  | t => .stop (cutName t.key (nameFault t) frames)

/-- One token, given the open containers and what must come next. -/
def step (frames : List Frame) (expected : Expected) (t : Token) : Step :=
  match expected, t, frames with
  | .value, t, frames => stepValue frames t
  | .firstItem, .closeList, .list items :: rest => completed (.list items.reverse .closed) rest
  | .firstItem, t, frames => stepValue frames t
  | .firstName, .closeObject, .object members :: rest =>
    completed (.object members.reverse .closed) rest
  | .firstName, t, frames => stepName frames t
  | .name, t, frames => stepName frames t
  | .colon key, .colon, frames => .go (await key frames) .value
  | .colon key, _, frames => .stop (cut .malformed (await key frames) (some (.broken .stray)))
  | .separator, .comma, .list items :: rest => .go (.list items :: rest) .value
  | .separator, .comma, .object members :: rest => .go (.object members :: rest) .name
  | .separator, .closeList, .list items :: rest => completed (.list items.reverse .closed) rest
  | .separator, .closeObject, .object members :: rest =>
    completed (.object members.reverse .closed) rest
  | .separator, _, frames => .stop (cut .malformed frames none)

/-- The tree of a text that ends while something must still come. -/
def ended (frames : List Frame) : Expected → Document
  | .value => cutValue .missing frames
  | .name => cutName (.error .truncated) .truncated frames
  | .colon key => cut .truncated (await key frames) none
  | .firstItem | .firstName | .separator => cut .truncated frames none

/-- The tree of the tokens to come. -/
def build (frames : List Frame) (expected : Expected) : List Token → Document
  | [] => ended frames expected
  | t :: ts =>
    match step frames expected t with
    | .go frames expected => build frames expected ts
    | .whole v => ⟨v, !ts.isEmpty⟩
    | .stop d => d

def parse (s : List UInt8) : Document :=
  build [] .value (scan s)

end Document

/-! ## Reading the tree -/

namespace Ending

def check : Ending → Except Fault Unit
  | .cut f => .error f
  | .closed => .ok ()

end Ending

/-- Where a tree comes from: from text, in which so many containers may still be opened one inside
the other; or from a value that is held already and was checked when it was read. -/
inductive Source where
  | text (levels : Nat)
  | held

namespace Source

/-- A document nests its lists and objects at most this deep. -/
def document : Source := .text 127

def enter : Source → Except Fault Source
  | text 0 => .error .malformed
  | text (n + 1) => .ok (text n)
  | held => .ok held

/-- The problem with an item too many: text must go on with the closing bracket, whereas a held list
is measured as a whole. -/
def surplus : Source → Fault
  | text _ => .malformed
  | held => .mismatch

end Source

namespace Node

/-- The problem with a value that stands where one of another kind is asked for. A scalar is read to
its end before it is refused; a list or object is refused at its bracket. -/
def refusal : Node → Fault
  | .number (.error f) | .text (.error f) => f
  | .broken b => b.value
  | _ => .mismatch

/-- Passes over a value: it must go on to its end, and nothing else is checked. -/
def skip : Node → Except Fault Unit
  | .list _ e | .object _ e => e.check
  | .broken b => .error b.skipped
  | _ => .ok ()

mutual

/-- Any value at all, members in their order. -/
def free (source : Source) : Node → Except Fault Json
  | .null => .ok .null
  | .bool b => .ok (.bool b)
  | .number n => n.map .number
  | .text s => s.map .text
  | .list items ending => do
    let source ← source.enter
    let items ← freeItems source items
    ending.check
    .ok (.list items)
  | .object members ending => do
    let source ← source.enter
    let members ← freeMembers source members
    ending.check
    .ok (.object members)
  | .broken b => .error b.value

/-- Every item, from left to right. -/
def freeItems (source : Source) : List Node → Except Fault (List Json)
  | [] => .ok []
  | v :: vs => do
    let v ← free source v
    let vs ← freeItems source vs
    .ok (v :: vs)

/-- Every member, from left to right, the name before its value. -/
def freeMembers (source : Source) : List (Key × Node) → Except Fault (List (String × Json))
  | [] => .ok []
  | (k, v) :: rest => do
    let k ← k
    let v ← free source v
    let rest ← freeMembers source rest
    .ok ((k, v) :: rest)

end

mutual

/-- A value that is held already. -/
def ofJson : Json → Node
  | .null => .null
  | .bool b => .bool b
  | .number n => .number (.ok n)
  | .text s => .text (.ok s)
  | .list items => .list (ofItems items) .closed
  | .object members => .object (ofMembers members) .closed

def ofItems : List Json → List Node
  | [] => []
  | v :: vs => ofJson v :: ofItems vs

def ofMembers : List (String × Json) → List (Key × Node)
  | [] => []
  | (k, v) :: rest => (.ok k, ofJson v) :: ofMembers rest

end

end Node

namespace Document

/-- What a reader makes of the value; nothing may follow it. -/
def decode {α : Type} (read : Node → Except Fault α) (d : Document) : Except Fault α := do
  let x ← read d.root
  if d.trailing then .error .malformed else .ok x

end Document
end TransitPush.Json
