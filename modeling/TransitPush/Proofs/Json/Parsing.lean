import TransitPush.Json.Document
import TransitPush.Proofs.Json.Numbers
/-!
# Written documents are parsed

The text of a value is cut into the tokens of the value, and these are put together to the value's own
tree. Texts are written and read for all characters; of the doubles in a value it is asked that each
of them is read back.

* `scanQuoted_escape`: an escaped byte is taken up as the byte.
* `scanFrom_bytes`: the text of a value is scanned as its tokens, whatever follows.
* `build_tokens`: the tokens of a value complete it in the innermost open container.
* `parse_bytes`: the text of a value is parsed as the value, and nothing follows it.
-/
namespace TransitPush.Json

/-! ## Quoted texts -/

/-- The bytes of a text, written out, are the text. -/
theorem fromUTF8?_toUTF8 (s : String) :
    String.fromUTF8? ⟨s.toUTF8.data.toList.toArray⟩ = some s := by
  rw [String.fromUTF8?]
  exact dif_pos (show (⟨s.toUTF8.data.toList.toArray⟩ : ByteArray).IsValidUTF8 from s.isValidUTF8)

section
variable {taken bs r s : List UInt8} {fault : Option Fault}

theorem scanQuoted_escaped (h : scanEscaped s = .ok (.ok bs, r)) :
    scanQuoted taken fault (0x5C :: s) = scanQuoted (bs.reverse ++ taken) fault r := by
  rw [scanQuoted, if_neg (by decide), if_pos rfl]
  split
  · rename_i he
    rw [h] at he
    cases he
  · rename_i he
    rw [h] at he
    cases he
    rfl
  · rename_i he
    rw [h] at he
    cases he

theorem scanQuoted_plain {c : UInt8} (hquote : c ≠ 0x22) (hslash : c ≠ 0x5C) (hlow : ¬ c < 0x20) :
    scanQuoted taken fault (c :: r) = scanQuoted (c :: taken) fault r := by
  rw [scanQuoted, if_neg hquote, if_neg hslash, if_neg hlow]

theorem scanEscaped_hex {b : UInt8} (hb : b < 0x20) :
    scanEscaped (0x75 :: 0x30 :: 0x30 :: hexDigit (b / 16) :: hexDigit (b % 16) :: r) =
      .ok (.ok [b], r) := by
  have hall : ∀ n < 32, hexValue? (hexDigit (n.toUInt8 / 16)) = some (n / 16) ∧
      hexValue? (hexDigit (n.toUInt8 % 16)) = some (n % 16) ∧ isTrail n = false ∧
      isLead n = false ∧ codePointBytes n = [n.toUInt8] := by decide
  obtain ⟨hhigh, hlow, htrail, hlead, hbytes⟩ := hall b.toNat (UInt8.lt_iff_toNat_lt.mp hb)
  rw [show b.toNat.toUInt8 = b from UInt8.ofNat_toNat] at hhigh hlow hbytes
  have hzero : hexValue? 0x30 = some 0 := rfl
  have hunit : codeUnit (0x30 :: 0x30 :: hexDigit (b / 16) :: hexDigit (b % 16) :: r) =
      .ok (b.toNat, r) := by
    simp only [codeUnit, hzero, hhigh, hlow, Except.ok.injEq, Prod.mk.injEq, and_true]
    omega
  have hescape : scanEscape (0x75 :: 0x30 :: 0x30 :: hexDigit (b / 16) :: hexDigit (b % 16) :: r) =
      .ok (.unit b.toNat, r) := by
    rw [scanEscape, if_pos rfl, hunit]
    rfl
  rw [scanEscaped, hescape]
  simp only [htrail, hlead, hbytes, Bool.false_eq_true, if_false]

/-- An escaped byte is taken up as the byte that it stands for. -/
theorem scanQuoted_escape (b : UInt8) :
    scanQuoted taken none (escape b ++ r) = scanQuoted (b :: taken) none r := by
  have hshort : ∀ {e : UInt8} {cs : List Char}, ascii cs = [0x5C, e] →
      scanEscaped (e :: r) = .ok (.ok [b], r) →
      scanQuoted taken none (ascii cs ++ r) = scanQuoted (b :: taken) none r := by
    intro e cs hcs hb
    rw [hcs]
    exact scanQuoted_escaped hb
  unfold escape
  iterate 7
    split
    · next h => exact hshort rfl (h ▸ rfl)
  split
  · next h => exact scanQuoted_escaped (scanEscaped_hex h)
  · next hquote hslash _ _ _ _ _ hlow => exact scanQuoted_plain hquote hslash hlow

theorem scanQuoted_flatMap :
    scanQuoted taken none (bs.flatMap escape ++ 0x22 :: r) =
      .whole (readText none (bs.reverse ++ taken)) r := by
  induction bs generalizing taken with
  | nil => rw [List.flatMap_nil, List.nil_append, scanQuoted, if_pos rfl]; rfl
  | cons b bs ih =>
    rw [List.flatMap_cons, List.append_assoc, scanQuoted_escape, ih, List.reverse_cons,
      List.append_assoc]
    rfl

/-- A quoted text is one token. -/
theorem scanToken_quoted (s : String) :
    scanToken 0x22 (s.toUTF8.data.toList.flatMap escape ++ 0x22 :: r) = .ok (.text (.ok s), r) := by
  have hread : readText none (s.toUTF8.data.toList.reverse ++ []) = .ok s := by
    rw [readText, List.append_nil, List.reverse_reverse, fromUTF8?_toUTF8]
  have hpunctuation : punctuation? 0x22 = none := rfl
  have hword : word? 0x22 = none := rfl
  simp only [scanToken, hpunctuation, hword, if_true, scanQuoted_flatMap, hread]

end

/-! ## The tokens of a value -/

mutual

def tokens : Json → List Token
  | .null => [.null]
  | .bool b => [.bool b]
  | .number n => [.number (.ok n)]
  | .text s => [.text (.ok s)]
  | .list items => .openList :: (itemsTokens items ++ [.closeList])
  | .object members => .openObject :: (membersTokens members ++ [.closeObject])

/-- The tokens of items with a comma between any two. -/
def itemsTokens : List Json → List Token
  | [] => []
  | [x] => tokens x
  | x :: y :: rest => tokens x ++ .comma :: itemsTokens (y :: rest)

/-- The tokens of members with a comma between any two. -/
def membersTokens : List (String × Json) → List Token
  | [] => []
  | [(k, v)] => .text (.ok k) :: .colon :: tokens v
  | (k, v) :: m :: rest =>
    .text (.ok k) :: .colon :: (tokens v ++ .comma :: membersTokens (m :: rest))

end

mutual

def doubles : Json → List Double
  | .number (.double d) => [d]
  | .list items => itemsDoubles items
  | .object members => membersDoubles members
  | _ => []

def itemsDoubles : List Json → List Double
  | [] => []
  | x :: xs => doubles x ++ itemsDoubles xs

def membersDoubles : List (String × Json) → List Double
  | [] => []
  | (_, v) :: rest => doubles v ++ membersDoubles rest

end

/-- Every double of a value is read back from what is written for it. -/
def ReadsBack (v : Json) : Prop :=
  ∀ d ∈ v.doubles, d.ReadsBack

instance (v : Json) : Decidable v.ReadsBack :=
  inferInstanceAs (Decidable (∀ d ∈ _, _))

/-! ## From the text to the tokens -/

section
variable {found : List Token} {r s : List UInt8}

theorem scanFrom_token {c : UInt8} {t : Token} (hspace : isSpace c = false)
    (h : scanToken c s = .ok (t, r)) : scanFrom found (c :: s) = scanFrom (t :: found) r := by
  rw [scanFrom, hspace, if_neg Bool.false_ne_true]
  split
  · rename_i ht
    rw [h] at ht
    cases ht
    rfl
  · rename_i ht
    rw [h] at ht
    cases ht

theorem scanFrom_quoted (s : String) :
    scanFrom found (quoted s ++ r) = scanFrom (.text (.ok s) :: found) r := by
  rw [quoted, List.cons_append, List.append_assoc]
  exact scanFrom_token rfl (scanToken_quoted s)

theorem scanFrom_number {n : Number} (hn : readNumber? (numberBytes n) = some n)
    (hr : Ends goesOn r) :
    scanFrom found (numberBytes n ++ r) = scanFrom (.number (.ok n) :: found) r := by
  obtain ⟨c, t, hbytes, hspace, htoken⟩ := scanToken_number hn hr
  rw [hbytes]
  exact scanFrom_token hspace htoken

mutual

/-- The text of a value is scanned as the value's tokens, whatever follows that does not go on with
a number. -/
theorem scanFrom_bytes : ∀ (v : Json) {found : List Token} {r : List UInt8}, v.ReadsBack →
    Ends goesOn r → scanFrom found (v.bytes ++ r) = scanFrom (v.tokens.reverse ++ found) r
  | .null, _, _, _, _ => scanFrom_token rfl rfl
  | .bool true, _, _, _, _ => scanFrom_token rfl rfl
  | .bool false, _, _, _, _ => scanFrom_token rfl rfl
  | .number (.whole n fits), _, _, _, hr => scanFrom_number (readNumber_whole n fits) hr
  | .number (.double d), _, _, hv, hr =>
    scanFrom_number (n := .double d) (hv d List.mem_cons_self) hr
  | .text s, _, _, _, _ => scanFrom_quoted s
  | .list items, found, r, hv, _ => by
    rw [bytes, List.cons_append, List.append_assoc, scanFrom_token (t := .openList) rfl rfl,
      List.singleton_append, scanFrom_items items hv (ends_cons rfl),
      scanFrom_token (t := .closeList) rfl rfl, tokens]
    simp only [List.reverse_cons, List.reverse_append, List.append_assoc, List.cons_append,
      List.nil_append, List.reverse_nil]
  | .object members, found, r, hv, _ => by
    rw [bytes, List.cons_append, List.append_assoc, scanFrom_token (t := .openObject) rfl rfl,
      List.singleton_append, scanFrom_members members hv (ends_cons rfl),
      scanFrom_token (t := .closeObject) rfl rfl, tokens]
    simp only [List.reverse_cons, List.reverse_append, List.append_assoc, List.cons_append,
      List.nil_append, List.reverse_nil]

theorem scanFrom_items : ∀ (items : List Json) {found : List Token} {r : List UInt8},
    (∀ d ∈ itemsDoubles items, d.ReadsBack) → Ends goesOn r →
    scanFrom found (itemsBytes items ++ r) = scanFrom ((itemsTokens items).reverse ++ found) r
  | [], _, _, _, _ => rfl
  | [x], found, r, hv, hr => by
    rw [itemsBytes, itemsTokens]
    exact scanFrom_bytes x (fun d hd => hv d (List.mem_append_left _ hd)) hr
  | x :: y :: rest, found, r, hv, hr => by
    rw [itemsBytes, itemsTokens, List.append_assoc, List.cons_append,
      scanFrom_bytes x (fun d hd => hv d (List.mem_append_left _ hd)) (ends_cons rfl),
      scanFrom_token (t := .comma) rfl rfl,
      scanFrom_items (y :: rest) (fun d hd => hv d (List.mem_append_right _ hd)) hr]
    simp only [List.reverse_cons, List.reverse_append, List.append_assoc, List.cons_append,
      List.nil_append]

theorem scanFrom_members : ∀ (members : List (String × Json)) {found : List Token}
    {r : List UInt8}, (∀ d ∈ membersDoubles members, d.ReadsBack) → Ends goesOn r →
    scanFrom found (membersBytes members ++ r) =
      scanFrom ((membersTokens members).reverse ++ found) r
  | [], _, _, _, _ => rfl
  | [(k, v)], found, r, hv, hr => by
    rw [membersBytes, membersTokens, List.append_assoc, scanFrom_quoted, List.cons_append,
      scanFrom_token (t := .colon) rfl rfl,
      scanFrom_bytes v (fun d hd => hv d (List.mem_append_left _ hd)) hr]
    simp only [List.reverse_cons, List.append_assoc, List.cons_append, List.nil_append]
  | (k, v) :: m :: rest, found, r, hv, hr => by
    rw [membersBytes, membersTokens, List.append_assoc, scanFrom_quoted, List.cons_append,
      List.append_assoc, scanFrom_token (t := .colon) rfl rfl, List.cons_append,
      scanFrom_bytes v (fun d hd => hv d (List.mem_append_left _ hd)) (ends_cons rfl),
      scanFrom_token (t := .comma) rfl rfl,
      scanFrom_members (m :: rest) (fun d hd => hv d (List.mem_append_right _ hd)) hr]
    simp only [List.reverse_cons, List.reverse_append, List.append_assoc, List.cons_append,
      List.nil_append]

end
end

/-! ## From the tokens to the tree -/

namespace Document

/-- What the tokens to come make of a step. -/
def resume : Step → List Token → Document
  | .go frames expected, ts => build frames expected ts
  | .whole v, ts => ⟨v, !ts.isEmpty⟩
  | .stop d, _ => d

section
variable {frames rest : List Frame} {expected : Expected} {t : Token} {ts : List Token}

theorem build_cons : build frames expected (t :: ts) = resume (step frames expected t) ts := by
  rw [build]
  cases step frames expected t <;> rfl

/-- The first token of a value is a value in the place of the first item too. -/
theorem build_firstItem (v : Json) :
    build frames .firstItem (v.tokens ++ ts) = build frames .value (v.tokens ++ ts) := by
  cases v <;> rfl

mutual

/-- The tokens of a value complete it in the innermost open container. -/
theorem build_tokens : ∀ (v : Json) {frames : List Frame} {ts : List Token},
    build frames .value (v.tokens ++ ts) = resume (completed (.ofJson v) frames) ts
  | .null, _, _ => build_cons
  | .bool _, _, _ => build_cons
  | .number _, _, _ => build_cons
  | .text _, _, _ => build_cons
  | .list [], frames, ts => by
    show build (.list [] :: frames) .firstItem (.closeList :: ts) = _
    exact build_cons
  | .list (x :: xs), frames, ts => by
    rw [tokens, List.cons_append, List.append_assoc, build_cons]
    show build (.list [] :: frames) .firstItem _ = _
    have hfirst : build (.list [] :: frames) .firstItem (itemsTokens (x :: xs) ++ ([.closeList] ++ ts)) =
        build (.list [] :: frames) .value (itemsTokens (x :: xs) ++ ([.closeList] ++ ts)) := by
      cases xs with
      | nil => exact build_firstItem x
      | cons y ys =>
        rw [itemsTokens, List.append_assoc]
        exact build_firstItem x
    rw [hfirst]
    exact build_items (x :: xs) (List.cons_ne_nil x xs)
  | .object [], frames, ts => by
    show build (.object [] :: frames) .firstName (.closeObject :: ts) = _
    exact build_cons
  | .object (m :: ms), frames, ts => by
    rw [tokens, List.cons_append, List.append_assoc, build_cons]
    show build (.object [] :: frames) .firstName _ = _
    have hfirst : build (.object [] :: frames) .firstName
          (membersTokens (m :: ms) ++ ([.closeObject] ++ ts)) =
        build (.object [] :: frames) .name (membersTokens (m :: ms) ++ ([.closeObject] ++ ts)) := by
      cases ms <;> rfl
    rw [hfirst]
    exact build_members (m :: ms) (List.cons_ne_nil m ms)

theorem build_items : ∀ (items : List Json), items ≠ [] →
    ∀ {done : List Node} {rest : List Frame} {ts : List Token},
    build (.list done :: rest) .value (itemsTokens items ++ .closeList :: ts) =
      resume (completed (.list (done.reverse ++ Node.ofItems items) .closed) rest) ts
  | [], h, _, _, _ => absurd rfl h
  | [x], _, done, rest, ts => by
    rw [itemsTokens, build_tokens x]
    show build (.list (.ofJson x :: done) :: rest) .separator (.closeList :: ts) = _
    rw [build_cons, Node.ofItems, Node.ofItems, ← List.reverse_cons]
    rfl
  | x :: y :: ys, _, done, rest, ts => by
    rw [itemsTokens, List.append_assoc, build_tokens x]
    show build (.list (.ofJson x :: done) :: rest) .value (itemsTokens (y :: ys) ++ _) = _
    rw [build_items (y :: ys) (List.cons_ne_nil y ys), List.reverse_cons, List.append_assoc]
    rfl

theorem build_members : ∀ (members : List (String × Json)), members ≠ [] →
    ∀ {done : List (Key × Node)} {rest : List Frame} {ts : List Token},
    build (.object done :: rest) .name (membersTokens members ++ .closeObject :: ts) =
      resume (completed (.object (done.reverse ++ Node.ofMembers members) .closed) rest) ts
  | [], h, _, _, _ => absurd rfl h
  | [(k, v)], _, done, rest, ts => by
    rw [membersTokens]
    show build (.member done (.ok k) :: rest) .value (v.tokens ++ _) = _
    rw [build_tokens v]
    show build (.object ((.ok k, .ofJson v) :: done) :: rest) .separator (.closeObject :: ts) = _
    rw [build_cons, Node.ofMembers, Node.ofMembers, ← List.reverse_cons]
    rfl
  | (k, v) :: m :: ms, _, done, rest, ts => by
    rw [membersTokens]
    show build (.member done (.ok k) :: rest) .value
      ((v.tokens ++ .comma :: membersTokens (m :: ms)) ++ _) = _
    rw [List.append_assoc, build_tokens v]
    show build (.object ((.ok k, .ofJson v) :: done) :: rest) .name (membersTokens (m :: ms) ++ _) = _
    rw [build_members (m :: ms) (List.cons_ne_nil m ms), List.reverse_cons, List.append_assoc]
    rfl

end
end

/-- The text of a value is parsed as the value's own tree, and nothing follows it. -/
theorem parse_bytes {v : Json} (hv : v.ReadsBack) : parse v.bytes = ⟨.ofJson v, false⟩ := by
  have hscan : scan v.bytes = v.tokens := by
    have h : scanFrom [] (v.bytes ++ []) = scanFrom (v.tokens.reverse ++ []) [] :=
      scanFrom_bytes v hv ends_nil
    rw [List.append_nil, List.append_nil] at h
    rw [scan, h, scanFrom, List.reverse_reverse]
  have hbuild : build [] .value (v.tokens ++ []) = resume (completed (.ofJson v) []) [] :=
    build_tokens v
  rw [List.append_nil] at hbuild
  rw [parse, hscan, hbuild]
  rfl

end Document
end TransitPush.Json
