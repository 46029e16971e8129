import TransitPush.Json.Value
/-!
# Tokens of JSON text

A JSON text is a row of bytes. `Token.scan` cuts it into tokens up to the first place where no
token can be read; what is wrong there is kept as the last token.

Some faults count only for a reader that wants the token's value. A text with half a surrogate pair
and a number beyond all doubles can still be skipped, so the fault lies inside the token and the
scan goes on.

* `Fault`: the three ways in which a document can be wrong.
* `Break`: a place where the text cannot be read on, and the fault there by what is looked for.
* `Literal.number?`: the value of a number from its digits.
-/
namespace TransitPush.Json

/-- What is wrong with a document: it is no JSON, it ends too early, or it is JSON of another shape
than the one asked for. -/
inductive Fault where
  | malformed
  | truncated
  | mismatch
deriving DecidableEq, Repr

/-- A place where nothing readable stands: the text ends there, something stands there with which
no value begins, or a number, word or quoted text begins there that does not go on to its end. The
latter carry the fault for one who reads them and the fault for one who skips them. -/
inductive Break where
  | missing
  | stray
  | inWord (read skipped : Fault)
  | inText (read skipped : Fault)
deriving DecidableEq

namespace Break

/-- The fault met when a value is read here. -/
def value : Break → Fault
  | missing => .truncated
  | stray => .malformed
  | inWord read _ | inText read _ => read

/-- The fault met when a value is skipped here. -/
def skipped : Break → Fault
  | missing => .truncated
  | stray => .malformed
  | inWord _ skipped | inText _ skipped => skipped

/-- The fault met when a choice between named variants is read here: it begins with an object or a
text. -/
def choice : Break → Fault
  | missing => .truncated
  | stray | inWord _ _ => .malformed
  | inText read _ => read

/-- The fault met when the name of a member is read here: it begins with a quote. -/
def name : Break → Fault := choice

/-- The fault met when the name of a member is skipped here. -/
def skippedName : Break → Fault
  | missing => .truncated
  | stray | inWord _ _ => .malformed
  | inText _ skipped => skipped

end Break

inductive Token where
  | openList | closeList | openObject | closeObject | comma | colon
  | null
  | bool (b : Bool)
  | number (n : Except Fault Number)
  | text (s : Except Fault String)
  | broken (b : Break)

/-! ## Numbers -/

def isDigit (b : UInt8) : Bool :=
  0x30 ≤ b && b ≤ 0x39

def digitValue (b : UInt8) : Nat :=
  b.toNat - 48

structure Literal where
  negative : Bool
  whole : List UInt8
  fraction : Option (List UInt8)
  exponent : Option Int

/-- Takes up digits into a significand as long as it stays below `2 ^ 64`; the second part is the
digits left over. -/
def significand (s : Nat) : List UInt8 → Nat × List UInt8
  | [] => (s, [])
  | d :: ds =>
    let next := 10 * s + digitValue d
    if next < UInt64.size then significand next ds else (s, d :: ds)

/-- The number that a literal stands for; `none` if it is beyond all doubles. Digits of the whole
part that the significand cannot take raise the power of ten, those of the fraction are dropped.
Minus zero and whole numbers beyond 64 bits are doubles. -/
def Literal.number? (l : Literal) : Option Number :=
  let (s, left) := significand 0 l.whole
  let double (s : Nat) (k : Int) : Option Number :=
    (Double.ofDecimal? s k).map fun d => .double (d.withSign l.negative)
  match l.fraction, l.exponent with
  | none, none =>
    let n : Int := if l.negative then -s else s
    if h : left = [] ∧ ¬ (l.negative ∧ s = 0) ∧ FitsWord n then
      some (.whole n h.2.2)
    else double s left.length
  | fraction, exponent =>
    let digits := fraction.getD []
    let (s, dropped) := significand s digits
    double s (left.length - (digits.length - dropped.length : Nat) + exponent.getD 0)

def digitsValue (ds : List UInt8) : Nat :=
  ds.foldl (fun n d => 10 * n + digitValue d) 0

/-- The exponent after its letter: an optional sign and at least one digit. -/
def scanExponent (s : List UInt8) : Except Break (Int × List UInt8) :=
  let (negative, s) := match s with
    | c :: r => if c = 0x2D then (true, r) else if c = 0x2B then (false, r) else (false, s)
    | [] => (false, s)
  match s.takeWhile isDigit, s.dropWhile isDigit with
  | [], [] => .error (.inWord .truncated .malformed)
  | [], _ :: _ => .error (.inWord .malformed .malformed)
  | ds, r =>
    let e : Int := digitsValue ds
    .ok (if negative then -e else e, r)

/-- The fraction that may follow the whole part: a point and at least one digit. -/
def scanFraction (s : List UInt8) : Except Break (Option (List UInt8) × List UInt8) :=
  match s with
  | [] => .ok (none, [])
  | c :: r =>
    if c = 0x2E then
      match r.takeWhile isDigit, r.dropWhile isDigit with
      | [], [] => .error (.inWord .truncated .malformed)
      | [], _ :: _ => .error (.inWord .malformed .malformed)
      | ds, r => .ok (some ds, r)
    else .ok (none, s)

/-- The exponent that may follow whole part and fraction. -/
def scanPower (s : List UInt8) : Except Break (Option Int × List UInt8) :=
  match s with
  | [] => .ok (none, [])
  | c :: r =>
    if c = 0x65 || c = 0x45 then (scanExponent r).map fun (e, r) => (some e, r)
    else .ok (none, s)

/-- A number after its sign: no digit follows a leading zero. -/
def scanNumber (negative : Bool) (s : List UInt8) : Except Break (Literal × List UInt8) :=
  match s.takeWhile isDigit, s.dropWhile isDigit with
  | [], [] => .error (.inWord .truncated .malformed)
  | [], _ :: _ => .error (.inWord .malformed .malformed)
  | d :: ds, r =>
    if d = 0x30 && !ds.isEmpty then .error (.inWord .malformed .malformed)
    else
      match scanFraction r with
      | .error b => .error b
      | .ok (fraction, r) =>
        (scanPower r).map fun (exponent, r) => (⟨negative, d :: ds, fraction, exponent⟩, r)

/-! ## Words -/

/-- The rest of a text after a word that it must begin with. -/
def expect : (word s : List UInt8) → Except Break (List UInt8)
  | [], s => .ok s
  | _ :: _, [] => .error (.inWord .truncated .truncated)
  | w :: ws, c :: s =>
    if w = c then expect ws s else .error (.inWord .malformed .malformed)

/-! ## Quoted texts -/

def hexValue? (b : UInt8) : Option Nat :=
  if isDigit b then some (b.toNat - 48)
  else if 0x41 ≤ b && b ≤ 0x46 then some (b.toNat - 55)
  else if 0x61 ≤ b && b ≤ 0x66 then some (b.toNat - 87)
  else none

/-- The code unit written as four hexadecimal digits. -/
def codeUnit : List UInt8 → Except Fault (Nat × List UInt8)
  | a :: b :: c :: d :: r =>
    match hexValue? a, hexValue? b, hexValue? c, hexValue? d with
    | some a, some b, some c, some d => .ok (((a * 16 + b) * 16 + c) * 16 + d, r)
    | _, _, _, _ => .error .malformed
  | _ => .error .truncated

/-- What an escape stands for: a byte, or a UTF-16 code unit. -/
inductive Escaped where
  | byte (b : UInt8)
  | unit (n : Nat)

def scanEscape : List UInt8 → Except Fault (Escaped × List UInt8)
  | [] => .error .truncated
  | c :: r =>
    if c = 0x75 then (codeUnit r).map fun (n, r) => (.unit n, r)
    else if c = 0x22 || c = 0x5C || c = 0x2F then .ok (.byte c, r)
    else if c = 0x62 then .ok (.byte 0x08, r)
    else if c = 0x66 then .ok (.byte 0x0C, r)
    else if c = 0x6E then .ok (.byte 0x0A, r)
    else if c = 0x72 then .ok (.byte 0x0D, r)
    else if c = 0x74 then .ok (.byte 0x09, r)
    else .error .malformed

/-- The first unit of a surrogate pair. -/
def isLead (n : Nat) : Bool := 0xD800 ≤ n && n ≤ 0xDBFF

/-- The second unit of a surrogate pair. -/
def isTrail (n : Nat) : Bool := 0xDC00 ≤ n && n ≤ 0xDFFF

/-- The escaped second unit that must follow the first. -/
def scanTrail : List UInt8 → Except Fault (Nat × List UInt8)
  | [] => .error .truncated
  | [c] => if c = 0x5C then .error .truncated else .error .malformed
  | c :: u :: r =>
    if c = 0x5C && u = 0x75 then do
      let (n, r) ← codeUnit r
      if isTrail n then .ok (n, r) else .error .malformed
    else .error .malformed

def paired (lead trail : Nat) : Nat :=
  (lead - 0xD800) * 0x400 + (trail - 0xDC00) + 0x10000

def codePointBytes (n : Nat) : List UInt8 :=
  String.utf8EncodeChar (Char.ofNat n)

/-- A quoted text up to its closing quote and what follows, or where it breaks off. -/
inductive QuotedScan where
  | whole (s : Except Fault String) (rest : List UInt8)
  | broken (b : Break)

theorem codeUnit_rest {s r : List UInt8} {n : Nat} (h : codeUnit s = .ok (n, r)) :
    r.length < s.length := by
  unfold codeUnit at h
  split at h
  · split at h
    · simp only [Except.ok.injEq, Prod.mk.injEq] at h
      obtain ⟨-, rfl⟩ := h
      simp only [List.length_cons]
      omega
    · cases h
  · cases h

theorem scanEscape_rest {s r : List UInt8} {e : Escaped} (h : scanEscape s = .ok (e, r)) :
    r.length < s.length := by
  cases s with
  | nil => cases h
  | cons c t =>
    simp only [scanEscape] at h
    split at h
    · cases hu : codeUnit t with
      | error f => rw [hu] at h; cases h
      | ok p =>
        obtain ⟨n, r'⟩ := p
        rw [hu] at h
        simp only [Except.map, Except.ok.injEq, Prod.mk.injEq] at h
        obtain ⟨-, rfl⟩ := h
        have := codeUnit_rest hu
        simp only [List.length_cons]
        omega
    · repeat' split at h
      all_goals first
        | (simp only [Except.ok.injEq, Prod.mk.injEq] at h; obtain ⟨-, rfl⟩ := h; simp)
        | cases h

theorem scanTrail_rest {s r : List UInt8} {n : Nat} (h : scanTrail s = .ok (n, r)) :
    r.length < s.length := by
  unfold scanTrail at h
  split at h
  · cases h
  · split at h <;> cases h
  · rename_i c u t
    split at h
    · cases hu : codeUnit t with
      | error f => rw [hu] at h; cases h
      | ok p =>
        obtain ⟨m, r'⟩ := p
        rw [hu] at h
        simp only [bind, Except.bind] at h
        split at h
        · simp only [Except.ok.injEq, Prod.mk.injEq] at h
          obtain ⟨-, rfl⟩ := h
          have := codeUnit_rest hu
          simp only [List.length_cons]
          omega
        · cases h
    · cases h

/-- What an escape, or a pair of them, adds to a text: its bytes, or the fault that only a reader of
the text minds; and what follows it. -/
def scanEscaped (s : List UInt8) : Except Fault (Except Fault (List UInt8) × List UInt8) :=
  match scanEscape s with
  | .error f => .error f
  | .ok (.byte b, r) => .ok (.ok [b], r)
  | .ok (.unit n, r) =>
    if isTrail n then .ok (.error .malformed, r)
    else if isLead n then
      match scanTrail r with
      | .ok (m, r') => .ok (.ok (codePointBytes (paired n m)), r')
      | .error f => .ok (.error f, r)
    else .ok (.ok (codePointBytes n), r)

theorem scanEscaped_rest {s r : List UInt8} {e : Except Fault (List UInt8)}
    (h : scanEscaped s = .ok (e, r)) : r.length < s.length := by
  unfold scanEscaped at h
  split at h
  · cases h
  · rename_i he
    simp only [Except.ok.injEq, Prod.mk.injEq] at h
    obtain ⟨-, rfl⟩ := h
    exact scanEscape_rest he
  · rename_i he
    have hr := scanEscape_rest he
    split at h
    · simp only [Except.ok.injEq, Prod.mk.injEq] at h
      obtain ⟨-, rfl⟩ := h
      exact hr
    · split at h
      · split at h
        · rename_i ht
          simp only [Except.ok.injEq, Prod.mk.injEq] at h
          obtain ⟨-, rfl⟩ := h
          exact Nat.lt_trans (scanTrail_rest ht) hr
        · simp only [Except.ok.injEq, Prod.mk.injEq] at h
          obtain ⟨-, rfl⟩ := h
          exact hr
      · simp only [Except.ok.injEq, Prod.mk.injEq] at h
        obtain ⟨-, rfl⟩ := h
        exact hr

/-- The text made of bytes, which must be UTF-8, unless a fault was met before. -/
def readText (fault : Option Fault) (taken : List UInt8) : Except Fault String :=
  match fault with
  | some f => .error f
  | none =>
    match String.fromUTF8? ⟨taken.reverse.toArray⟩ with
    | some s => .ok s
    | none => .error .malformed

/-- The body of a quoted text. `taken` holds the bytes so far, last first; `fault` the first fault
that only a reader of the text minds: half a surrogate pair. -/
def scanQuoted (taken : List UInt8) (fault : Option Fault) : List UInt8 → QuotedScan
  | [] => .broken (.inText (fault.getD .truncated) .truncated)
  | c :: r =>
    if c = 0x22 then .whole (readText fault taken) r
    else if c = 0x5C then
      match _he : scanEscaped r with
      | .error f => .broken (.inText (fault.getD f) f)
      | .ok (.ok bs, r') => scanQuoted (bs.reverse ++ taken) fault r'
      | .ok (.error f, r') => scanQuoted taken (fault <|> some f) r'
    else if c < 0x20 then .broken (.inText (fault.getD .malformed) .malformed)
    else scanQuoted (c :: taken) fault r
termination_by s => s.length
decreasing_by
  · have := scanEscaped_rest _he; simp only [List.length_cons]; omega
  · have := scanEscaped_rest _he; simp only [List.length_cons]; omega
  · simp

theorem scanQuoted_rest {taken : List UInt8} {fault : Option Fault} {s r : List UInt8}
    {t : Except Fault String} (h : scanQuoted taken fault s = .whole t r) :
    r.length < s.length := by
  fun_induction scanQuoted taken fault s <;> try cases h
  case case2 => simp
  case case4 he _ ih =>
    have := scanEscaped_rest he; have := ih h; simp only [List.length_cons]; omega
  case case5 he _ ih =>
    have := scanEscaped_rest he; have := ih h; simp only [List.length_cons]; omega
  case case7 ih => have := ih h; simp only [List.length_cons]; omega

/-! ## The row of tokens -/

theorem length_dropWhile_le {p : UInt8 → Bool} (s : List UInt8) :
    (s.dropWhile p).length ≤ s.length :=
  (List.dropWhile_sublist p).length_le

theorem scanExponent_rest {s r : List UInt8} {e : Int} (h : scanExponent s = .ok (e, r)) :
    r.length ≤ s.length := by
  unfold scanExponent at h
  split at h
  rename_i negative t ht
  have hl : t.length ≤ s.length := by
    cases s with
    | nil => simp only [Prod.mk.injEq] at ht; simp [← ht.2]
    | cons c s =>
      simp only at ht
      split at ht
      · simp only [Prod.mk.injEq] at ht; simp [← ht.2]
      · split at ht <;> (simp only [Prod.mk.injEq] at ht; simp [← ht.2])
  split at h
  · cases h
  · cases h
  · simp only [Except.ok.injEq, Prod.mk.injEq] at h
    rw [← h.2]
    exact Nat.le_trans (length_dropWhile_le t) hl

theorem scanFraction_rest {s r : List UInt8} {f : Option (List UInt8)}
    (h : scanFraction s = .ok (f, r)) : r.length ≤ s.length := by
  unfold scanFraction at h
  split at h
  · simp_all
  · rename_i c t
    split at h
    · split at h
      · cases h
      · cases h
      · simp only [Except.ok.injEq, Prod.mk.injEq] at h
        have := length_dropWhile_le (p := isDigit) t
        rw [← h.2, List.length_cons]
        omega
    · simp only [Except.ok.injEq, Prod.mk.injEq] at h
      exact Nat.le_of_eq (congrArg List.length h.2.symm)

theorem scanPower_rest {s r : List UInt8} {e : Option Int} (h : scanPower s = .ok (e, r)) :
    r.length ≤ s.length := by
  unfold scanPower at h
  split at h
  · simp_all
  · rename_i c t
    split at h
    · cases he : scanExponent t with
      | error b => rw [he] at h; cases h
      | ok p =>
        rw [he] at h
        simp only [Except.map, Except.ok.injEq, Prod.mk.injEq] at h
        have := scanExponent_rest he
        rw [← h.2, List.length_cons]
        omega
    · simp only [Except.ok.injEq, Prod.mk.injEq] at h
      exact Nat.le_of_eq (congrArg List.length h.2.symm)

theorem scanNumber_rest {negative : Bool} {s r : List UInt8} {l : Literal}
    (h : scanNumber negative s = .ok (l, r)) : r.length < s.length := by
  unfold scanNumber at h
  split at h
  · cases h
  · cases h
  · rename_i d ds hd
    generalize ht : s.dropWhile isDigit = t at h
    have hl : t.length < s.length := by
      have := congrArg List.length (List.takeWhile_append_dropWhile (p := isDigit) (l := s))
      rw [hd, ht, List.length_append, List.length_cons] at this
      omega
    split at h
    · cases h
    · split at h
      · cases h
      · rename_i f u hf
        cases hp : scanPower u with
        | error b => rw [hp] at h; cases h
        | ok p =>
          rw [hp] at h
          simp only [Except.map, Except.ok.injEq, Prod.mk.injEq] at h
          rw [← h.2]
          exact Nat.lt_of_le_of_lt (scanPower_rest hp)
            (Nat.lt_of_le_of_lt (scanFraction_rest hf) hl)

theorem expect_rest {word s r : List UInt8} (h : expect word s = .ok r) :
    r.length ≤ s.length := by
  fun_induction expect word s <;> try cases h
  case case1 => exact Nat.le_refl _
  case case3 ih => have := ih h; simp only [List.length_cons]; omega

def numberToken (scan : Except Break (Literal × List UInt8)) : Except Break (Token × List UInt8) :=
  scan.map fun (l, r) =>
    (.number (match l.number? with
      | some n => .ok n
      | none => .error .malformed), r)

def punctuation? (c : UInt8) : Option Token :=
  if c = 0x5B then some .openList
  else if c = 0x5D then some .closeList
  else if c = 0x7B then some .openObject
  else if c = 0x7D then some .closeObject
  else if c = 0x2C then some .comma
  else if c = 0x3A then some .colon
  else none

/-- The word that begins with a letter, without that letter. -/
def word? (c : UInt8) : Option (List UInt8 × Token) :=
  if c = 0x6E then some ([0x75, 0x6C, 0x6C], .null)
  else if c = 0x74 then some ([0x72, 0x75, 0x65], .bool true)
  else if c = 0x66 then some ([0x61, 0x6C, 0x73, 0x65], .bool false)
  else none

/-- The token that begins with `c`, and what follows it. -/
def scanToken (c : UInt8) (r : List UInt8) : Except Break (Token × List UInt8) :=
  match punctuation? c, word? c with
  | some t, _ => .ok (t, r)
  | none, some (w, t) =>
    match expect w r with
    | .ok r => .ok (t, r)
    | .error b => .error b
  | none, none =>
    if c = 0x22 then
      match scanQuoted [] none r with
      | .whole s r => .ok (.text s, r)
      | .broken b => .error b
    else if c = 0x2D then numberToken (scanNumber true r)
    else if isDigit c then numberToken (scanNumber false (c :: r))
    else .error .stray

theorem numberToken_rest {scan : Except Break (Literal × List UInt8)} {t : Token}
    {r : List UInt8} (h : numberToken scan = .ok (t, r)) : ∃ l, scan = .ok (l, r) := by
  cases scan with
  | error b => cases h
  | ok p =>
    simp only [numberToken, Except.map, Except.ok.injEq, Prod.mk.injEq] at h
    exact ⟨p.1, by rw [← h.2]⟩

theorem scanToken_rest {c : UInt8} {s r : List UInt8} {t : Token}
    (h : scanToken c s = .ok (t, r)) : r.length ≤ s.length := by
  unfold scanToken at h
  split at h
  · simp only [Except.ok.injEq, Prod.mk.injEq] at h
    exact Nat.le_of_eq (congrArg _ h.2.symm)
  · split at h
    · rename_i he
      simp only [Except.ok.injEq, Prod.mk.injEq] at h
      exact h.2 ▸ expect_rest he
    · cases h
  · split at h
    · split at h
      · rename_i hq
        simp only [Except.ok.injEq, Prod.mk.injEq] at h
        exact h.2 ▸ Nat.le_of_lt (scanQuoted_rest hq)
      · cases h
    · split at h
      · obtain ⟨l, hl⟩ := numberToken_rest h
        exact Nat.le_of_lt (scanNumber_rest hl)
      · split at h
        · obtain ⟨l, hl⟩ := numberToken_rest h
          have := scanNumber_rest hl
          rw [List.length_cons] at this
          omega
        · cases h

/-- A blank of JSON: space, tab, line feed or carriage return. -/
def isSpace (b : UInt8) : Bool :=
  b = 0x20 || b = 0x09 || b = 0x0A || b = 0x0D

/-- The tokens of a text behind those already found, which are held last first. -/
def scanFrom (found : List Token) : List UInt8 → List Token
  | [] => found.reverse
  | c :: r =>
    if isSpace c then scanFrom found r
    else
      match _ht : scanToken c r with
      | .ok (t, r') => scanFrom (t :: found) r'
      | .error b => (Token.broken b :: found).reverse
termination_by s => s.length
decreasing_by
  · simp
  · have := scanToken_rest _ht; simp only [List.length_cons]; omega

/-- The tokens of a text, up to the first place where none can be read. -/
def scan (s : List UInt8) : List Token :=
  scanFrom [] s

end TransitPush.Json
