import TransitPush.Feed.Codec
import TransitPush.Proofs.Json.Parsing
/-!
# Formats whose values return

A value returns through a format when what is written for it is read back as the value. Whether it does
depends on the nesting that the reader still allows, so the property carries a number of levels: the
value is not nested deeper than that, and every source that holds so many levels gives it back. Text
holds the levels that may still be opened in it; a value that is held already is not measured again.

* `Format.Returns`: a value returns through a format.
* `Format.list_returns`, `both_returns`, `filtered_returns`, `choice_returns`, `tagged_returns`: formats
  made from others give back what the parts give back.
* `Record.returns`: a structure returns if its members build it up from the blank one.
* `Format.ofPayload_of_toPayload`: what returns and has doubles that are read back is decoded from its
  own payload.
-/
namespace TransitPush.Json

/-! ## Nesting -/

mutual

/-- How many lists and objects of a value lie one inside the other at most. -/
def depth : Json → Nat
  | .list items => itemsDepth items + 1
  | .object members => membersDepth members + 1
  | _ => 0

def itemsDepth : List Json → Nat
  | [] => 0
  | x :: xs => max (depth x) (itemsDepth xs)

def membersDepth : List (String × Json) → Nat
  | [] => 0
  | (_, v) :: rest => max (depth v) (membersDepth rest)

end

theorem itemsDepth_le {items : List Json} {k : Nat} :
    itemsDepth items ≤ k ↔ ∀ v ∈ items, v.depth ≤ k := by
  induction items with
  | nil => simp [itemsDepth]
  | cons v vs ih => rw [itemsDepth, Nat.max_le, ih, List.forall_mem_cons]

theorem membersDepth_le {members : List (String × Json)} {k : Nat} :
    membersDepth members ≤ k ↔ ∀ m ∈ members, m.2.depth ≤ k := by
  induction members with
  | nil => simp [membersDepth]
  | cons m ms ih => rw [membersDepth, Nat.max_le, ih, List.forall_mem_cons]

namespace Source

/-- A source in which so many containers can still be opened one inside the other. -/
def Holds : Source → Nat → Prop
  | text m, k => k ≤ m
  | held, _ => True

variable {source : Source} {k l : Nat}

theorem holds_held : held.Holds k := trivial

theorem holds_document : document.Holds 127 := Nat.le_refl 127

theorem Holds.mono (h : source.Holds l) (hkl : k ≤ l) : source.Holds k := by
  cases source with
  | text m => exact Nat.le_trans hkl h
  | held => trivial

theorem Holds.enter (h : source.Holds (k + 1)) :
    ∃ inner, source.enter = .ok inner ∧ inner.Holds k := by
  cases source with
  | text m =>
    cases m with
    | zero => exact absurd h (Nat.not_succ_le_zero k)
    | succ m => exact ⟨.text m, rfl, Nat.le_of_succ_le_succ h⟩
  | held => exact ⟨.held, rfl, trivial⟩

end Source

/-! ## Free values -/

/-- A free value that is read back as itself where so many levels can be opened. -/
structure Free (k : Nat) (v : Json) : Prop where
  settled : v.settled = v
  present : v ≠ .null
  depth : v.depth ≤ k

namespace Node

mutual

/-- A value is read as itself wherever its nesting is allowed. -/
theorem free_ofJson : ∀ (v : Json) {source : Source}, source.Holds v.depth →
    free source (ofJson v) = .ok v
  | .null, _, _ => rfl
  | .bool _, _, _ => rfl
  | .number _, _, _ => rfl
  | .text _, _, _ => rfl
  | .list items, _, h => by
    obtain ⟨inner, henter, hinner⟩ := Source.Holds.enter h
    rw [ofJson, free, henter]
    show (freeItems inner (ofItems items)).bind _ = _
    rw [freeItems_ofItems items hinner]
    rfl
  | .object members, _, h => by
    obtain ⟨inner, henter, hinner⟩ := Source.Holds.enter h
    rw [ofJson, free, henter]
    show (freeMembers inner (ofMembers members)).bind _ = _
    rw [freeMembers_ofMembers members hinner]
    rfl

theorem freeItems_ofItems : ∀ (items : List Json) {source : Source},
    source.Holds (itemsDepth items) → freeItems source (ofItems items) = .ok items
  | [], _, _ => rfl
  | v :: vs, source, h => by
    rw [ofItems, freeItems, free_ofJson v (h.mono (Nat.le_max_left _ _))]
    show (freeItems source (ofItems vs)).bind _ = _
    rw [freeItems_ofItems vs (h.mono (Nat.le_max_right _ _))]
    rfl

theorem freeMembers_ofMembers : ∀ (members : List (String × Json)) {source : Source},
    source.Holds (membersDepth members) → freeMembers source (ofMembers members) = .ok members
  | [], _, _ => rfl
  | (k, v) :: rest, source, h => by
    rw [ofMembers, freeMembers]
    show (free source (ofJson v)).bind _ = _
    rw [free_ofJson v (h.mono (Nat.le_max_left _ _))]
    show (freeMembers source (ofMembers rest)).bind _ = _
    rw [freeMembers_ofMembers rest (h.mono (Nat.le_max_right _ _))]
    rfl

end

end Node

/-! ## Values that return -/

/-- What is written for a value is not `null`, not nested deeper than some levels, and read back as the
value by every source that holds so many. -/
structure Format.Returns {α : Type} (f : Format α) (k : Nat) (x : α) : Prop where
  present : f.toJson x ≠ .null
  depth : (f.toJson x).depth ≤ k
  reads : ∀ {source : Source}, source.Holds k → f.read source (.ofJson (f.toJson x)) = .ok x

namespace Format

variable {α β : Type} {f : Format α} {k : Nat} {x : α}

/-! ### Basic formats -/

theorem text_returns {s : String} : text.Returns k s :=
  ⟨nofun, Nat.zero_le k, fun _ => rfl⟩

theorem bool_returns {b : Bool} : bool.Returns k b :=
  ⟨nofun, Nat.zero_le k, fun _ => rfl⟩

theorem double_returns {d : Double} : double.Returns k d :=
  ⟨nofun, Nat.zero_le k, fun _ => rfl⟩

theorem natBelow?_ofUInt64 {n : UInt64} {bound : Nat} (h : n.toNat < bound) :
    (Number.ofUInt64 n).natBelow? bound = some n.toNat := by
  rw [Number.ofUInt64, Number.natBelow?, if_pos ⟨Int.natCast_nonneg _, Int.ofNat_lt.mpr h⟩]
  rfl

theorem uint64_read {source : Source} {n : Number} {m : Nat}
    (h : n.natBelow? UInt64.size = some m) :
    uint64.read source (.number (.ok n)) = .ok m.toUInt64 := by
  simp only [uint64, h]

theorem uint32_read {source : Source} {n : Number} {m : Nat}
    (h : n.natBelow? UInt32.size = some m) :
    uint32.read source (.number (.ok n)) = .ok m.toUInt32 := by
  simp only [uint32, h]

theorem uint64_returns {n : UInt64} : uint64.Returns k n := by
  refine ⟨nofun, Nat.zero_le k, fun _ => ?_⟩
  have hnode : Node.ofJson (uint64.toJson n) = .number (.ok (.ofUInt64 n)) := rfl
  rw [hnode, uint64_read (natBelow?_ofUInt64 n.toNat_lt_size), Nat.toUInt64_eq, UInt64.ofNat_toNat]

theorem uint32_returns {n : UInt32} : uint32.Returns k n := by
  have hlt : n.toUInt64.toNat < UInt32.size := by
    rw [UInt32.toNat_toUInt64]
    exact n.toNat_lt_size
  refine ⟨nofun, Nat.zero_le k, fun _ => ?_⟩
  have hnode : Node.ofJson (uint32.toJson n) = .number (.ok (.ofUInt64 n.toUInt64)) := rfl
  rw [hnode, uint32_read (natBelow?_ofUInt64 hlt), UInt32.toNat_toUInt64, Nat.toUInt32_eq,
    UInt32.ofNat_toNat]

theorem free_returns {v : Json} (h : v.Free k) : free.Returns k v := by
  refine ⟨h.present, h.depth, fun hsource => ?_⟩
  show (Node.free _ (.ofJson v)).map settled = _
  rw [Node.free_ofJson v (hsource.mono h.depth)]
  exact congrArg _ h.settled

/-! ### Formats made from others -/

theorem filtered_returns {write : β → α} {read : α → Option β} {y : β} (h : f.Returns k (write y))
    (hread : read (write y) = some y) : (f.filtered write read).Returns k y := by
  refine ⟨h.present, h.depth, fun hsource => ?_⟩
  simp only [filtered, h.reads hsource, hread]

theorem readItems_returns {source : Source} (hsource : source.Holds k) :
    ∀ {xs : List α}, (∀ x ∈ xs, f.Returns k x) →
      f.readItems source (Node.ofItems (xs.map f.toJson)) = .ok xs
  | [], _ => rfl
  | x :: xs, h => by
    obtain ⟨hx, hxs⟩ := List.forall_mem_cons.mp h
    rw [List.map_cons, Node.ofItems, readItems, hx.reads hsource]
    show (f.readItems source (Node.ofItems (xs.map f.toJson))).bind _ = _
    rw [readItems_returns hsource hxs]
    rfl

theorem list_returns {xs : List α} (h : ∀ x ∈ xs, f.Returns k x) : f.list.Returns (k + 1) xs := by
  refine ⟨nofun, Nat.succ_le_succ (itemsDepth_le.mpr ?_), fun hsource => ?_⟩
  · intro v hv
    obtain ⟨x, hx, rfl⟩ := List.mem_map.mp hv
    exact (h x hx).depth
  · obtain ⟨inner, henter, hinner⟩ := hsource.enter
    show (Source.enter _).bind _ = _
    rw [henter]
    show (f.readItems inner (Node.ofItems (xs.map f.toJson))).bind _ = _
    rw [readItems_returns hinner h]
    rfl

theorem both_returns {g : Format β} {p : α × β} (hf : f.Returns k p.1) (hg : g.Returns k p.2) :
    (f.both g).Returns (k + 1) p := by
  refine ⟨nofun, Nat.succ_le_succ (itemsDepth_le.mpr ?_), fun hsource => ?_⟩
  · intro v hv
    simp only [List.mem_cons, List.not_mem_nil, or_false] at hv
    obtain rfl | rfl := hv
    · exact hf.depth
    · exact hg.depth
  · obtain ⟨inner, henter, hinner⟩ := hsource.enter
    show (Source.enter _).bind _ = _
    rw [henter]
    show (f.read inner (.ofJson (f.toJson p.1))).bind _ = _
    rw [hf.reads hinner]
    show (g.read inner (.ofJson (g.toJson p.2))).bind _ = _
    rw [hg.reads hinner]
    rfl

theorem option_read {source : Source} {n : Node} (hn : n ≠ .null) :
    f.option.read source n = (f.read source n).map some := by
  cases n <;> first | exact absurd rfl hn | rfl

theorem ofJson_ne_null {v : Json} (hv : v ≠ .null) : Node.ofJson v ≠ .null := by
  cases v <;> first | exact absurd rfl hv | exact nofun

/-- A value that may be absent is read back, the absent one from `null`. -/
theorem option_reads {y : Option α} (h : ∀ x, y = some x → f.Returns k x) :
    (f.option.toJson y).depth ≤ k ∧ ∀ {source : Source}, source.Holds k →
      f.option.read source (.ofJson (f.option.toJson y)) = .ok y := by
  cases y with
  | none => exact ⟨Nat.zero_le k, fun _ => rfl⟩
  | some x =>
    obtain ⟨hpresent, hdepth, hreads⟩ := h x rfl
    refine ⟨hdepth, fun hsource => ?_⟩
    show f.option.read _ (.ofJson (f.toJson x)) = _
    rw [option_read (ofJson_ne_null hpresent), hreads hsource]
    rfl

end Format

/-! ## Structures -/

/-- The member's part in building up a value: where it is written, it is read on top of what has been
made so far; where it is left out, nothing is missing. -/
def Member.Gives {α : Type} (m : Member α) (k : Nat) (x made made' : α) : Prop :=
  match m.write x with
  | none => m.presence ≠ .required ∧ made' = made
  | some v => v.depth ≤ k ∧ ∀ {source : Source}, source.Holds k →
      m.read source (.ofJson v) made = .ok made'

namespace Member

variable {α β : Type} {f : Format β} {k : Nat} {x made : α} {name : String}

/-- A member that is written is read back on top of what was made before. -/
theorem gives_written {presence : Presence} {get : α → β} {set : β → α → α} {leftOut : β → Bool}
    (hwritten : leftOut (get x) = false) (hdepth : (f.toJson (get x)).depth ≤ k)
    (hreads : ∀ {source : Source}, source.Holds k →
      f.read source (.ofJson (f.toJson (get x))) = .ok (get x)) :
    (field name presence f get set leftOut).Gives k x made (set (get x) made) := by
  have hwrite : (field name presence f get set leftOut).write x = some (f.toJson (get x)) := by
    show (if leftOut (get x) then none else _) = _
    rw [hwritten, if_neg Bool.false_ne_true]
  unfold Gives
  rw [hwrite]
  refine ⟨hdepth, fun hsource => ?_⟩
  show (f.read _ (.ofJson (f.toJson (get x)))).map _ = _
  rw [hreads hsource]
  rfl

/-- A member may be left out if what was made before does not have it. -/
theorem gives_leftOut {presence : Presence} {get : α → β} {set : β → α → α} {leftOut : β → Bool}
    (hleftOut : leftOut (get x) = true) (hpresence : presence ≠ .required)
    (hset : set (get x) made = made) :
    (field name presence f get set leftOut).Gives k x made (set (get x) made) := by
  have hwrite : (field name presence f get set leftOut).write x = none := by
    show (if leftOut (get x) then none else _) = _
    rw [hleftOut, if_pos rfl]
  unfold Gives
  rw [hwrite]
  exact ⟨hpresence, hset⟩

theorem gives_required {get : α → β} {set : β → α → α} (h : f.Returns k (get x)) :
    (required name f get set).Gives k x made (set (get x) made) :=
  gives_written rfl h.depth h.reads

theorem gives_defaulted {get : α → β} {set : β → α → α} (h : f.Returns k (get x)) :
    (defaulted name f get set).Gives k x made (set (get x) made) :=
  gives_written rfl h.depth h.reads

theorem gives_nullable {get : α → Option β} {set : Option β → α → α}
    (h : ∀ y, get x = some y → f.Returns k y) :
    (nullable name f get set).Gives k x made (set (get x) made) := by
  obtain ⟨hdepth, hreads⟩ := Format.option_reads h
  exact gives_written rfl hdepth hreads

theorem gives_optional {get : α → Option β} {set : Option β → α → α} (hset : set none made = made)
    (h : ∀ y, get x = some y → f.Returns k y) :
    (optional name f get set).Gives k x made (set (get x) made) := by
  obtain ⟨hdepth, hreads⟩ := Format.option_reads h
  cases hx : (get x).isNone with
  | true =>
    refine gives_leftOut hx nofun ?_
    rw [Option.isNone_iff_eq_none.mp hx]
    exact hset
  | false => exact gives_written hx hdepth hreads

theorem gives_listed {get : α → List β} {set : List β → α → α} (hset : set [] made = made)
    (h : ∀ y ∈ get x, f.Returns k y) :
    (listed name f get set).Gives (k + 1) x made (set (get x) made) := by
  have hlist := Format.list_returns h
  cases hx : (get x).isEmpty with
  | true =>
    refine gives_leftOut hx nofun ?_
    rw [List.isEmpty_iff.mp hx]
    exact hset
  | false => exact gives_written hx hlist.depth hlist.reads

end Member

namespace Record

variable {α : Type} {k : Nat} {x made : α} {r : Record α}

/-- Members that build up a value, one after the other, from what has been made before them. -/
inductive Builds (k : Nat) (x : α) : α → List (Member α) → Prop where
  | nil {made : α} (h : made = x) : Builds k x made []
  | cons {m : Member α} {ms : List (Member α)} {made made' : α} (h : m.Gives k x made made')
      (rest : Builds k x made' ms) : Builds k x made (m :: ms)

def written (x : α) (ms : List (Member α)) : List (String × Json) :=
  ms.filterMap fun m => (m.write x).map fun v => (m.name, v)

theorem written_cons {m : Member α} {ms : List (Member α)} :
    written x (m :: ms) = ((m.write x).map fun v => (m.name, v)).toList ++ written x ms := by
  rw [written, List.filterMap_cons]
  cases m.write x <;> rfl

theorem Builds.depth {ms : List (Member α)} (h : Builds k x made ms) :
    membersDepth (written x ms) ≤ k := by
  induction h with
  | nil => exact Nat.zero_le k
  | @cons m ms made made' h _ ih =>
    rw [written_cons]
    unfold Member.Gives at h
    cases hw : m.write x with
    | none => exact ih
    | some v =>
      rw [hw] at h
      exact Nat.max_le.mpr ⟨h.1, ih⟩

theorem find?_name {ms : List (Member α)} (hnames : (ms.map Member.name).Nodup) {m : Member α}
    (hm : m ∈ ms) : ms.find? (·.name == m.name) = some m := by
  induction ms with
  | nil => cases hm
  | cons m' ms ih =>
    obtain ⟨hfirst, hrest⟩ := List.nodup_cons.mp hnames
    rcases List.mem_cons.mp hm with rfl | hm
    · exact List.find?_cons_of_pos (beq_self_eq_true _)
    · have hne : (m'.name == m.name) = false := by
        rw [beq_eq_false_iff_ne]
        exact fun heq => hfirst (heq ▸ List.mem_map_of_mem hm)
      rw [List.find?_cons_of_neg (by simp [hne]), ih hrest hm]

/-- Members that are written for a value are read in their order and leave the value; every member
that must be given has been seen. -/
theorem Builds.reads {source : Source} (hsource : source.Holds k)
    (hnames : (r.members.map Member.name).Nodup) {ms : List (Member α)} (h : Builds k x made ms) :
    ∀ {seen : List String}, (∀ m ∈ ms, m ∈ r.members) → (ms.map Member.name).Nodup →
      (∀ m ∈ ms, m.name ∉ seen) →
      ∃ seen', r.readMembers source seen made (Node.ofMembers (written x ms)) = .ok (seen', x) ∧
        (∀ name ∈ seen, name ∈ seen') ∧
        ∀ m ∈ ms, m.presence = .required → m.name ∈ seen' := by
  induction h with
  | nil h => exact fun _ _ _ => ⟨_, by rw [h]; rfl, fun _ hn => hn, nofun⟩
  | @cons m ms made made' h _ ih =>
    intro seen hmembers hdistinct hfresh
    obtain ⟨hm, hms⟩ := List.forall_mem_cons.mp hmembers
    obtain ⟨hfirst, hrest⟩ := List.nodup_cons.mp hdistinct
    obtain ⟨hunseen, hfreshRest⟩ := List.forall_mem_cons.mp hfresh
    rw [written_cons]
    unfold Member.Gives at h
    cases hw : m.write x with
    | none =>
      rw [hw] at h
      obtain ⟨hpresence, rfl⟩ := h
      obtain ⟨seen', hread, hkept, hgiven⟩ := ih hms hrest hfreshRest
      exact ⟨seen', hread, hkept,
        List.forall_mem_cons.mpr ⟨fun hrequired => absurd hrequired hpresence, hgiven⟩⟩
    | some v =>
      rw [hw] at h
      have hfreshNext : ∀ m' ∈ ms, m'.name ∉ m.name :: seen := by
        intro m' hm'
        rw [List.mem_cons, not_or]
        exact ⟨fun heq => hfirst (heq ▸ List.mem_map_of_mem hm'), hfreshRest m' hm'⟩
      obtain ⟨seen', hread, hkept, hgiven⟩ := ih hms hrest hfreshNext
      refine ⟨seen', ?_, fun name hn => hkept name (List.mem_cons_of_mem _ hn),
        List.forall_mem_cons.mpr ⟨fun _ => hkept _ List.mem_cons_self, hgiven⟩⟩
      show r.readMembers source seen made ((.ok m.name, .ofJson v) :: Node.ofMembers (written x ms)) = _
      simp only [readMembers, bind, Except.bind, find?_name hnames hm, if_neg hunseen, h.2 hsource]
      exact hread

/-- A structure returns if its members have names of their own and build it up from the blank one. -/
theorem returns (hnames : (r.members.map Member.name).Nodup) (h : Builds k x r.blank r.members) :
    r.format.Returns (k + 1) x := by
  refine ⟨nofun, Nat.succ_le_succ h.depth, fun hsource => ?_⟩
  obtain ⟨inner, henter, hinner⟩ := hsource.enter
  obtain ⟨seen, hread, -, hgiven⟩ :=
    h.reads hinner hnames (fun _ hm => hm) hnames (fun _ _ => List.not_mem_nil)
  have hall : (r.members.all fun m => m.presence ≠ .required || seen.contains m.name) = true := by
    rw [List.all_eq_true]
    intro m hm
    by_cases hrequired : m.presence = .required
    · simp [hrequired, hgiven m hm hrequired]
    · simp [hrequired]
  show (Source.enter _).bind _ = _
  rw [henter]
  show (r.readMembers inner [] r.blank (Node.ofMembers (written x r.members))).bind _ = _
  rw [hread]
  exact if_pos hall

end Record

/-! ## Variants -/

namespace Format

variable {α β : Type} {f : Format β} {k : Nat} {y : β} {wrap : β → α} {name : String}
  {variants : List (Variant α)}

/-- A value of one of several kinds returns if its content does. -/
theorem choice_returns {write : α → String × Json} (hwrite : write (wrap y) = (name, f.toJson y))
    (hfind : Variant.find variants name = .ok (.of name f wrap)) (hy : f.Returns k y) :
    (choice variants write).Returns (k + 1) (wrap y) := by
  have hvalue : (choice variants write).toJson (wrap y) = .object [(name, f.toJson y)] := by
    show Json.object [write (wrap y)] = _
    rw [hwrite]
  refine ⟨by rw [hvalue]; exact nofun, ?_, fun {source} hsource => ?_⟩
  · rw [hvalue]
    exact Nat.succ_le_succ (Nat.max_le.mpr ⟨hy.depth, Nat.zero_le k⟩)
  · rw [hvalue]
    cases source with
    | held =>
      show (Variant.find variants name).bind _ = _
      rw [hfind]
      show (f.read .held (.ofJson (f.toJson y))).map wrap = _
      rw [hy.reads Source.holds_held]
      rfl
    | text m =>
      obtain ⟨inner, henter, hinner⟩ := hsource.enter
      show (Source.enter _).bind _ = _
      rw [henter]
      show (Variant.find variants name).bind _ = _
      rw [hfind]
      show ((f.read inner (.ofJson (f.toJson y))).map wrap).bind _ = _
      rw [hy.reads hinner]
      rfl

/-- Members none of which is the tag are all held for the variant. -/
theorem readTagged_members {tag : String} {source : Source} {chosen : Option (Variant α)} :
    ∀ {members : List (String × Json)}, (∀ m ∈ members, m.1 ≠ tag) →
      source.Holds (membersDepth members) →
      readTagged tag variants source chosen (Node.ofMembers members) = .ok (chosen, members)
  | [], _, _ => rfl
  | (name, v) :: rest, htag, hsource => by
    obtain ⟨hname, hrest⟩ := List.forall_mem_cons.mp htag
    rw [Node.ofMembers, readTagged]
    show (if name = tag then _ else _) = _
    rw [if_neg hname]
    show (Node.free source (.ofJson v)).bind _ = _
    rw [Node.free_ofJson v (hsource.mono (Nat.le_max_left _ _))]
    show (readTagged tag variants source chosen (Node.ofMembers rest)).bind _ = _
    rw [readTagged_members hrest (hsource.mono (Nat.le_max_right _ _))]
    rfl

/-- A value with its kind as tag among the members of a structure returns if the structure does and
has no member of the tag's name. -/
theorem tagged_returns {r : Record β} {tag : String} {write : α → String × List (String × Json)}
    (hwrite : write (wrap y) = (name, r.write y))
    (hfind : Variant.find variants name = .ok (.of name r.format wrap))
    (htag : ∀ m ∈ r.members, m.name ≠ tag) (hy : r.format.Returns (k + 1) y) :
    (tagged tag variants write).Returns (k + 1) (wrap y) := by
  have hvalue : (tagged tag variants write).toJson (wrap y) =
      .object ((tag, .text name) :: r.write y) := by
    show Json.object ((tag, .text (write (wrap y)).1) :: (write (wrap y)).2) = _
    rw [hwrite]
  have hmembers : ∀ m ∈ r.write y, m.1 ≠ tag := by
    intro m hm
    obtain ⟨m', hm', hwritten⟩ := List.mem_filterMap.mp hm
    obtain ⟨v, -, rfl⟩ := Option.map_eq_some_iff.mp hwritten
    exact htag m' hm'
  have hdepth : membersDepth (r.write y) ≤ k := Nat.le_of_succ_le_succ hy.depth
  refine ⟨by rw [hvalue]; exact nofun, ?_, fun {source} hsource => ?_⟩
  · rw [hvalue]
    exact Nat.succ_le_succ (Nat.max_le.mpr ⟨Nat.zero_le k, hdepth⟩)
  · rw [hvalue]
    obtain ⟨inner, henter, hinner⟩ := hsource.enter
    have hread : readTagged tag variants inner none
        (Node.ofMembers ((tag, .text name) :: r.write y)) =
          .ok (some (.of name r.format wrap), r.write y) := by
      rw [Node.ofMembers, readTagged]
      show (if tag = tag then _ else _) = _
      rw [if_pos rfl]
      show (readTag variants inner (.text (.ok name))).bind _ = _
      rw [show readTag variants inner (.text (.ok name)) = Variant.find variants name by
        cases inner <;> rfl, hfind]
      exact readTagged_members hmembers (hinner.mono hdepth)
    show (Source.enter _).bind _ = _
    rw [henter]
    show (readTagged tag variants inner none (Node.ofMembers ((tag, .text name) :: r.write y))).bind _ = _
    rw [hread]
    show (r.format.read .held (.ofJson (r.format.toJson y))).map wrap = _
    rw [hy.reads Source.holds_held]
    rfl

/-! ## Payloads -/

variable {x : β}

/-- A value that returns is decoded from its own text. -/
theorem decode_encode (h : f.Returns 127 x) (hdoubles : (f.toJson x).ReadsBack) :
    f.decode (f.encode x) = .ok x := by
  rw [decode, encode, Document.parse_bytes hdoubles]
  show (f.read .document (.ofJson (f.toJson x))).bind _ = _
  rw [h.reads Source.holds_document]
  rfl

theorem toPayload_of_size (h : (⟨(f.encode x).toArray⟩ : ByteArray).size ≤ maxPayloadSize) :
    f.toPayload x = .ok ⟨(f.encode x).toArray⟩ :=
  if_pos h

/-- A value that returns is decoded from its own payload, if there is one. -/
theorem ofPayload_of_toPayload {payload : ByteArray} (h : f.Returns 127 x)
    (hdoubles : (f.toJson x).ReadsBack) (hpayload : f.toPayload x = .ok payload) :
    f.ofPayload payload = .ok x := by
  simp only [toPayload, sized] at hpayload
  split at hpayload
  · rename_i hsize
    cases hpayload
    rw [ofPayload, if_pos hsize]
    show ((f.decode (f.encode x).toArray.toList).mapError _) = _
    rw [List.toList_toArray, decode_encode h hdoubles]
    rfl
  · cases hpayload

end Format
end TransitPush.Json
