import TransitPush.Json.Format
import TransitPush.Text.Percent
/-!
# Requests

Requests to the server over HTTP, and what can be wrong with them before anything is done: the path,
the method, the content type, the size and the shape of the body.

* `Route.ofPath?`: what a path names.
* `Request.read`: the value of a body.
-/
namespace TransitPush.Api

structure Request where
  method : String
  target : String
  contentType : Option String
  body : ByteArray

/-- A status, and a body if there is one. -/
structure Response where
  status : UInt16
  body : Option Json
deriving DecidableEq

def Response.bare (status : UInt16) : Response := ⟨status, none⟩

/-! ## Paths -/

/-- What a path names. A single subscription may be named by text that is none. -/
inductive Route where
  | health
  | subscriptions
  | enveloped
  | subscription (id : Option String)
  | situations
  | journeys
  | reload
deriving DecidableEq

def isSchemeChar (c : Char) : Bool :=
  c.isAlphanum || c = '+' || c = '-' || c = '.'

def endsHost (c : Char) : Bool :=
  c = '/' || c = '?' || c = '#'

/-- What follows scheme, host and port of a target that has them. -/
def afterHost (target : List Char) : List Char :=
  match target.dropWhile isSchemeChar with
  | ':' :: '/' :: '/' :: rest => rest.dropWhile fun c => !endsHost c
  | _ => target

/-- The path of a target, without scheme and host, query and fragment. -/
def Request.path (r : Request) : String :=
  .ofList ((afterHost r.target.toList).takeWhile fun c => c ≠ '?' ∧ c ≠ '#')

def segment? (path : String) : Option String :=
  let start := "/subscriptions/".toList
  if start.isPrefixOf path.toList then
    let rest := path.toList.drop start.length
    if rest.isEmpty ∨ rest.contains '/' then none else some (.ofList rest)
  else none

/-- What a path names, if anything. -/
def Route.ofPath? (path : String) : Option Route :=
  match path with
  | "/health" => some health
  | "/subscriptions" => some subscriptions
  | "/subscriptions/enveloped" => some enveloped
  | "/events/situations" => some situations
  | "/events/journeys" => some journeys
  | "/admin/reload" => some reload
  | path => (segment? path).map fun s => subscription (Text.percentDecodedText? s)

/-! ## Content types -/

def isTokenChar (c : Char) : Bool :=
  c.isAlphanum || "!#$%&'*+-.^_|~\x60".toList.contains c

def isQuotedChar (c : Char) : Bool :=
  0x20 ≤ c.toNat && c.toNat ≠ 0x7F

/-- What follows a quoted text after its opening quote: the text has at least one character, and the
first one may be a quote itself. -/
def afterQuoted? : List Char → Option (List Char)
  | [] => none
  | c :: s =>
    match isQuotedChar c, s.dropWhile fun d => isQuotedChar d && d ≠ '"' with
    | true, '"' :: rest => some (rest.dropWhile (· = ' '))
    | _, _ => none

/-- What follows the value of a parameter: a quoted text and blanks, a token, or nothing at the end. -/
def afterValue? : List Char → Option (List Char)
  | [] => some []
  | '"' :: s => afterQuoted? s
  | c :: s => if isTokenChar c then some (s.dropWhile isTokenChar) else none

/-- Parameters with semicolons between them, each a token, an equals sign and a value. There may be
none, and a semicolon may end them. -/
def areParameters : Nat → List Char → Bool
  | 0, _ => false
  | fuel + 1, s =>
    let s := s.dropWhile (· = ' ')
    s.isEmpty ||
      match s.takeWhile isTokenChar, s.dropWhile isTokenChar with
      | _ :: _, '=' :: s =>
        match afterValue? s with
        | some [] => true
        | some (';' :: s) => areParameters fuel s
        | _ => false
      | _, _ => false

/-- What may follow a subtype: nothing, or a semicolon and parameters. -/
def isRest : List Char → Bool
  | [] => true
  | c :: s => c = ';' && areParameters (s.length + 1) s

def hasStructure (subtype : List Char) : Bool :=
  (subtype.drop 1).contains '+'

def structureOf (subtype : List Char) : List Char :=
  (subtype.reverse.takeWhile (· ≠ '+')).reverse

def withoutStructure (subtype : List Char) : List Char :=
  if hasStructure subtype then ((subtype.reverse.dropWhile (· ≠ '+')).drop 1).reverse else subtype

/-- A character that can be read in a header: an ASCII character that is visible, or a blank. -/
def isHeaderChar (c : Char) : Bool :=
  c = '\t' || 0x20 ≤ c.toNat && c.toNat < 0x7F

/-- The content type is JSON, or of a subtype whose structure is JSON. -/
def isJsonType (contentType : String) : Bool :=
  let s := contentType.toList.map Char.toLower
  let kind := s.takeWhile isTokenChar
  match s.drop kind.length with
  | '/' :: s =>
    let subtype := s.takeWhile isTokenChar
    let json := "json".toList
    contentType.toList.all isHeaderChar && kind = "application".toList &&
      (withoutStructure subtype = json || hasStructure subtype && structureOf subtype = json) &&
      isRest (s.drop subtype.length)
  | _ => false

/-! ## Bodies -/

/-- The greatest size of a body in bytes, 2 MiB. -/
def maxBodySize : Nat := 2097152

/-- The value of a body, or the status with which it is refused: its content type must be JSON, and
it must not be too large. What follows the value does not matter. -/
def Request.read {α : Type} (r : Request) (f : Json.Format α) : Except UInt16 α :=
  if !r.contentType.any isJsonType then .error 415
  else if maxBodySize < r.body.size then .error 413
  else
    match f.decodeFront r.body.data.toList with
    | .ok x => .ok x
    | .error .mismatch => .error 422
    | .error _ => .error 400

end TransitPush.Api
