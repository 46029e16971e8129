import TransitPush.Proofs.Json.Returning
/-!
# What formats yield

Properties that every value has which a format reads, from whatever document. How deep a value can be
nested depends on where it stands, so the property of a format carries a number of levels: it is read
from a tree within which no more of them can be opened.

* `settled_settled`: settling a value twice is settling it once; a settled value is not deeper.
* `Format.Yields`: every value that is read within some levels has a property.
* `Record.yields`: a property that holds of the blank structure and that every member keeps.
* `Format.list_yields`, `option_yields`, `choice_yields`: formats made from others.
* `Format.option_free_yields`: free values come out in the form in which they return.
-/
namespace TransitPush

/-! ## Settled values -/

namespace Assoc

variable {α : Type} {es acc : List (String × α)}

theorem put_last {key : String} {value : α} (h : ∀ e ∈ es, e.1 < key) :
    put key value es = es ++ [(key, value)] := by
  induction es with
  | nil => rfl
  | cons e es ih =>
    obtain ⟨he, hes⟩ := List.forall_mem_cons.mp h
    rw [put, if_neg (String.lt_asymm he), if_neg (String.ne_of_lt he).symm, ih hes]
    rfl

/-- Entries that stand in ascending order already are put in as they stand. -/
theorem foldl_put_ascending (h : Ascending (acc ++ es)) :
    es.foldl (fun ms m => put m.1 m.2 ms) acc = acc ++ es := by
  induction es generalizing acc with
  | nil => exact (List.append_nil acc).symm
  | cons e es ih =>
    have hlast : put e.1 e.2 acc = acc ++ [e] :=
      put_last fun a ha => (List.pairwise_append.mp h).2.2 a ha e List.mem_cons_self
    rw [List.foldl_cons, hlast, ih (by rwa [List.append_assoc]), List.append_assoc]
    rfl

theorem mem_foldl_put {e : String × α} (h : e ∈ es.foldl (fun ms m => put m.1 m.2 ms) acc) :
    e ∈ acc ∨ e ∈ es := by
  induction es generalizing acc with
  | nil => exact .inl h
  | cons e' es ih =>
    rcases ih h with hput | hes
    · rcases mem_put hput with rfl | hacc
      · exact .inr List.mem_cons_self
      · exact .inl hacc
    · exact .inr (List.mem_cons_of_mem _ hes)

theorem ascending_foldl_put (h : Ascending acc) :
    Ascending (es.foldl (fun ms m => put m.1 m.2 ms) acc) := by
  induction es generalizing acc with
  | nil => exact h
  | cons e es ih => exact ih (ascending_put h)

end Assoc

namespace Json

theorem settledMembers_eq_self {members : List (String × Json)}
    (h : ∀ m ∈ members, m.2.settled = m.2) : settledMembers members = members := by
  induction members with
  | nil => rfl
  | cons m ms ih =>
    obtain ⟨hm, hms⟩ := List.forall_mem_cons.mp h
    rw [settledMembers, hm, ih hms]

mutual

/-- A settled value stays as it is when it is settled again. -/
theorem settled_settled : ∀ v : Json, v.settled.settled = v.settled
  | .null => rfl
  | .bool _ => rfl
  | .number _ => rfl
  | .text _ => rfl
  | .list items => by
    rw [settled, settled, settledItems_settled items]
  | .object members => by
    have hvalues := settledMembers_settled members
    rw [settled, settled]
    generalize hes : (settledMembers members).foldl (fun ms m => Assoc.put m.1 m.2 ms) [] = es
    have hsettled : settledMembers es = es := settledMembers_eq_self fun m hm => by
      rw [← hes] at hm
      exact hvalues m ((Assoc.mem_foldl_put hm).resolve_left List.not_mem_nil)
    have hascending : Assoc.Ascending es := hes ▸ Assoc.ascending_foldl_put .nil
    have hfold : es.foldl (fun ms m => Assoc.put m.1 m.2 ms) [] = [] ++ es :=
      Assoc.foldl_put_ascending hascending
    rw [hsettled, hfold, List.nil_append]

theorem settledItems_settled : ∀ items : List Json,
    settledItems (settledItems items) = settledItems items
  | [] => rfl
  | v :: vs => by
    rw [settledItems, settledItems, settled_settled v, settledItems_settled vs]

theorem settledMembers_settled : ∀ (members : List (String × Json)),
    ∀ m ∈ settledMembers members, m.2.settled = m.2
  | [] => nofun
  | (_, v) :: rest =>
    List.forall_mem_cons.mpr ⟨settled_settled v, settledMembers_settled rest⟩

end

mutual

/-- Settling a value does not make it deeper. -/
theorem depth_settled : ∀ v : Json, v.settled.depth ≤ v.depth
  | .null => Nat.le_refl _
  | .bool _ => Nat.le_refl _
  | .number _ => Nat.le_refl _
  | .text _ => Nat.le_refl _
  | .list items => Nat.succ_le_succ (itemsDepth_settled items)
  | .object members => by
    rw [settled]
    refine Nat.succ_le_succ (membersDepth_le.mpr fun m hm => ?_)
    exact membersDepth_le.mp (membersDepth_settled members) m
      ((Assoc.mem_foldl_put hm).resolve_left List.not_mem_nil)

theorem itemsDepth_settled : ∀ items : List Json, itemsDepth (settledItems items) ≤ itemsDepth items
  | [] => Nat.le_refl _
  | v :: vs => by
    have hv := depth_settled v
    have hvs := itemsDepth_settled vs
    rw [settledItems, itemsDepth, itemsDepth]
    omega

theorem membersDepth_settled : ∀ members : List (String × Json),
    membersDepth (settledMembers members) ≤ membersDepth members
  | [] => Nat.le_refl _
  | (_, v) :: rest => by
    have hv := depth_settled v
    have hrest := membersDepth_settled rest
    rw [settledMembers, membersDepth, membersDepth]
    omega

end

theorem settled_ne_null {v : Json} (h : v ≠ .null) : v.settled ≠ .null := by
  cases v <;> first | exact absurd rfl h | nofun

/-! ## Levels of a tree -/

namespace Node

mutual

/-- How many lists and objects of a tree lie one inside the other at most. -/
def depth : Node → Nat
  | .list items _ => itemsDepth items + 1
  | .object members _ => membersDepth members + 1
  | _ => 0

def itemsDepth : List Node → Nat
  | [] => 0
  | n :: ns => max (depth n) (itemsDepth ns)

def membersDepth : List (Key × Node) → Nat
  | [] => 0
  | (_, n) :: rest => max (depth n) (membersDepth rest)

end

theorem itemsDepth_le {items : List Node} {k : Nat} :
    itemsDepth items ≤ k ↔ ∀ n ∈ items, n.depth ≤ k := by
  induction items with
  | nil => simp [itemsDepth]
  | cons n ns ih => rw [itemsDepth, Nat.max_le, ih, List.forall_mem_cons]

theorem membersDepth_le {members : List (Key × Node)} {k : Nat} :
    membersDepth members ≤ k ↔ ∀ m ∈ members, m.2.depth ≤ k := by
  induction members with
  | nil => simp [membersDepth]
  | cons m ms ih => rw [membersDepth, Nat.max_le, ih, List.forall_mem_cons]

mutual

/-- The tree of a value is as deep as the value. -/
theorem depth_ofJson : ∀ v : Json, (ofJson v).depth = v.depth
  | .null => rfl
  | .bool _ => rfl
  | .number _ => rfl
  | .text _ => rfl
  | .list items => congrArg (· + 1) (itemsDepth_ofItems items)
  | .object members => congrArg (· + 1) (membersDepth_ofMembers members)

theorem itemsDepth_ofItems : ∀ items : List Json, itemsDepth (ofItems items) = Json.itemsDepth items
  | [] => rfl
  | v :: vs => by
    rw [ofItems, itemsDepth, Json.itemsDepth, depth_ofJson v, itemsDepth_ofItems vs]

theorem membersDepth_ofMembers : ∀ members : List (String × Json),
    membersDepth (ofMembers members) = Json.membersDepth members
  | [] => rfl
  | (_, v) :: rest => by
    rw [ofMembers, membersDepth, Json.membersDepth, depth_ofJson v, membersDepth_ofMembers rest]

end

end Node

namespace Source

/-- No more than so many levels can be opened in a tree: text does not allow more, a held value does
not have more. -/
def Within : Source → Node → Nat → Prop
  | text m, _, k => m ≤ k
  | held, n, k => n.depth ≤ k

variable {source inner : Source} {k : Nat} {ending : Ending}

theorem within_document {n : Node} : document.Within n 127 := Nat.le_refl 127

/-- What is inside a node that has further levels in it is within one level less. -/
theorem Within.inside {n : Node} {d : Nat} (h : source.Within n k) (hn : n.depth = d + 1)
    (henter : source.enter = .ok inner) :
    ∃ j, k = j + 1 ∧ ∀ m : Node, m.depth ≤ d → inner.Within m j := by
  cases source with
  | text m =>
    cases m with
    | zero => cases henter
    | succ m =>
      cases henter
      obtain ⟨j, rfl⟩ : ∃ j, k = j + 1 := Nat.exists_eq_add_of_le' (Nat.le_trans (Nat.le_add_left 1 m) h)
      exact ⟨j, rfl, fun _ _ => Nat.le_of_succ_le_succ h⟩
  | held =>
    cases henter
    have hd : d + 1 ≤ k := hn ▸ h
    obtain ⟨j, rfl⟩ : ∃ j, k = j + 1 := Nat.exists_eq_add_of_le' (Nat.le_trans (Nat.le_add_left 1 d) hd)
    exact ⟨j, rfl, fun _ hm => Nat.le_trans hm (Nat.le_of_succ_le_succ hd)⟩

theorem Within.items {items : List Node} (h : source.Within (.list items ending) k)
    (henter : source.enter = .ok inner) : ∃ j, k = j + 1 ∧ ∀ n ∈ items, inner.Within n j := by
  obtain ⟨j, rfl, hinside⟩ := h.inside rfl henter
  exact ⟨j, rfl, fun n hn => hinside n (Node.itemsDepth_le.mp (Nat.le_refl _) n hn)⟩

theorem Within.members {members : List (Key × Node)} (h : source.Within (.object members ending) k)
    (henter : source.enter = .ok inner) : ∃ j, k = j + 1 ∧ ∀ m ∈ members, inner.Within m.2 j := by
  obtain ⟨j, rfl, hinside⟩ := h.inside rfl henter
  exact ⟨j, rfl, fun m hm => hinside m.2 (Node.membersDepth_le.mp (Nat.le_refl _) m hm)⟩

end Source

/-- The steps of a reading that succeeds. -/
theorem ok_of_bind {α β : Type} {x : Except Fault α} {f : α → Except Fault β} {b : β}
    (h : (x >>= f) = .ok b) : ∃ a, x = .ok a ∧ f a = .ok b := by
  cases x with
  | error e => cases h
  | ok a => exact ⟨a, rfl, h⟩

theorem ok_of_map {α β : Type} {x : Except Fault α} {f : α → β} {b : β}
    (h : x.map f = .ok b) : ∃ a, x = .ok a ∧ f a = b := by
  cases x with
  | error e => cases h
  | ok a => exact ⟨a, rfl, Except.ok.inj h⟩

namespace Node

mutual

/-- A value that is read is not deeper than the levels that can be opened. -/
theorem depth_free : ∀ (n : Node) {source : Source} {k : Nat} {v : Json}, source.Within n k →
    free source n = .ok v → v.depth ≤ k
  | .null, _, _, _, _, h => by cases h; exact Nat.zero_le _
  | .bool _, _, _, _, _, h => by cases h; exact Nat.zero_le _
  | .number _, _, _, _, _, h => by
    obtain ⟨_, -, rfl⟩ := ok_of_map h
    exact Nat.zero_le _
  | .text _, _, _, _, _, h => by
    obtain ⟨_, -, rfl⟩ := ok_of_map h
    exact Nat.zero_le _
  | .list items _, _, _, _, hwithin, h => by
    rw [free] at h
    obtain ⟨inner, henter, h⟩ := ok_of_bind h
    obtain ⟨vs, hitems, h⟩ := ok_of_bind h
    obtain ⟨-, -, h⟩ := ok_of_bind h
    cases h
    obtain ⟨j, rfl, hinner⟩ := hwithin.items henter
    exact Nat.succ_le_succ (itemsDepth_freeItems items hinner hitems)
  | .object members _, _, _, _, hwithin, h => by
    rw [free] at h
    obtain ⟨inner, henter, h⟩ := ok_of_bind h
    obtain ⟨vs, hmembers, h⟩ := ok_of_bind h
    obtain ⟨-, -, h⟩ := ok_of_bind h
    cases h
    obtain ⟨j, rfl, hinner⟩ := hwithin.members henter
    exact Nat.succ_le_succ (membersDepth_freeMembers members hinner hmembers)
  | .broken _, _, _, _, _, h => by cases h

theorem itemsDepth_freeItems : ∀ (items : List Node) {source : Source} {k : Nat} {vs : List Json},
    (∀ n ∈ items, source.Within n k) → freeItems source items = .ok vs → Json.itemsDepth vs ≤ k
  | [], _, _, _, _, h => by cases h; exact Nat.zero_le _
  | n :: ns, _, _, _, hwithin, h => by
    rw [freeItems] at h
    obtain ⟨v, hv, h⟩ := ok_of_bind h
    obtain ⟨vs, hvs, h⟩ := ok_of_bind h
    cases h
    obtain ⟨hn, hns⟩ := List.forall_mem_cons.mp hwithin
    exact Nat.max_le.mpr ⟨depth_free n hn hv, itemsDepth_freeItems ns hns hvs⟩

theorem membersDepth_freeMembers : ∀ (members : List (Key × Node)) {source : Source} {k : Nat}
    {vs : List (String × Json)}, (∀ m ∈ members, source.Within m.2 k) →
    freeMembers source members = .ok vs → Json.membersDepth vs ≤ k
  | [], _, _, _, _, h => by cases h; exact Nat.zero_le _
  | (_, n) :: rest, _, _, _, hwithin, h => by
    rw [freeMembers] at h
    obtain ⟨name, -, h⟩ := ok_of_bind h
    obtain ⟨v, hv, h⟩ := ok_of_bind h
    obtain ⟨vs, hvs, h⟩ := ok_of_bind h
    cases h
    obtain ⟨hn, hrest⟩ := List.forall_mem_cons.mp hwithin
    exact Nat.max_le.mpr ⟨depth_free n hn hv, membersDepth_freeMembers rest hrest hvs⟩

end

theorem free_ne_null {n : Node} {source : Source} {v : Json} (hn : n ≠ .null)
    (h : free source n = .ok v) : v ≠ .null := by
  rintro rfl
  cases n with
  | null => exact hn rfl
  | bool b => cases h
  | number n =>
    obtain ⟨_, -, h⟩ := ok_of_map h
    cases h
  | text s =>
    obtain ⟨_, -, h⟩ := ok_of_map h
    cases h
  | list items ending =>
    rw [free] at h
    obtain ⟨_, -, h⟩ := ok_of_bind h
    obtain ⟨_, -, h⟩ := ok_of_bind h
    obtain ⟨_, -, h⟩ := ok_of_bind h
    cases h
  | object members ending =>
    rw [free] at h
    obtain ⟨_, -, h⟩ := ok_of_bind h
    obtain ⟨_, -, h⟩ := ok_of_bind h
    obtain ⟨_, -, h⟩ := ok_of_bind h
    cases h
  | broken b => cases h

end Node

/-! ## Formats and structures -/

/-- Every value that is read within some levels has a property. -/
def Format.Yields {α : Type} (f : Format α) (k : Nat) (P : α → Prop) : Prop :=
  ∀ source n x, source.Within n k → f.read source n = .ok x → P x

def Variant.Yields {α : Type} (v : Variant α) (k : Nat) (P : α → Prop) : Prop :=
  ∀ source n x, source.Within n k → v.read source n = .ok x → P x

/-- A member that is read within some levels keeps a property of the structure made so far. -/
def Member.Keeps {α : Type} (m : Member α) (k : Nat) (P : α → Prop) : Prop :=
  ∀ source n x x', source.Within n k → m.read source n x = .ok x' → P x → P x'

theorem Member.field_keeps {α β : Type} {name : String} {presence : Presence} {f : Format β}
    {get : α → β} {set : β → α → α} {leftOut : β → Bool} {k : Nat} {P : α → Prop} {Q : β → Prop}
    (hf : f.Yields k Q) (hset : ∀ v x, Q v → P x → P (set v x)) :
    (field name presence f get set leftOut).Keeps k P := by
  intro source n x x' hwithin h hx
  obtain ⟨v, hv, rfl⟩ := ok_of_map h
  exact hset v x (hf _ _ _ hwithin hv) hx

/-- A member that a property does not speak of keeps it. -/
theorem Member.other_keeps {α β : Type} {name : String} {presence : Presence} {f : Format β}
    {get : α → β} {set : β → α → α} {leftOut : β → Bool} {k : Nat} {P : α → Prop}
    (hset : ∀ v x, P x → P (set v x)) : (field name presence f get set leftOut).Keeps k P :=
  field_keeps (fun _ _ _ _ _ => trivial) fun v x (_ : True) hx => hset v x hx

namespace Record

variable {α : Type} {r : Record α} {k : Nat} {P : α → Prop} {source : Source}

theorem readMembers_keeps (hmembers : ∀ m ∈ r.members, m.Keeps k P) :
    ∀ {nodes : List (Key × Node)} {seen seen' : List String} {x x' : α},
      (∀ m ∈ nodes, source.Within m.2 k) →
      r.readMembers source seen x nodes = .ok (seen', x') → P x → P x'
  | [], _, _, _, _, _, h, hx => by
    cases h
    exact hx
  | (key, n) :: rest, _, _, _, _, hwithin, h, hx => by
    obtain ⟨hn, hrest⟩ := List.forall_mem_cons.mp hwithin
    rw [readMembers] at h
    obtain ⟨name, -, h⟩ := ok_of_bind h
    split at h
    · obtain ⟨-, -, h⟩ := ok_of_bind h
      exact readMembers_keeps hmembers hrest h hx
    · rename_i m hfind
      split at h
      · cases h
      · obtain ⟨x', hread, h⟩ := ok_of_bind h
        exact readMembers_keeps hmembers hrest h
          (hmembers m (List.mem_of_find?_eq_some hfind) _ _ _ _ hn hread hx)

theorem readItems_keeps {surplus : Fault} {ending : Ending} :
    ∀ {ms : List (Member α)} {items : List Node} {x x' : α}, (∀ m ∈ ms, m.Keeps k P) →
      (∀ n ∈ items, source.Within n k) → readItems source surplus ending x ms items = .ok x' →
      P x → P x'
  | [], [], _, _, _, _, h, hx => by
    rw [readItems] at h
    obtain ⟨-, -, h⟩ := ok_of_bind h
    cases h
    exact hx
  | [], _ :: _, _, _, _, _, h, _ => by cases h
  | m :: ms, [], _, _, hmembers, hwithin, h, hx => by
    rw [readItems] at h
    obtain ⟨-, -, h⟩ := ok_of_bind h
    split at h
    · exact readItems_keeps (List.forall_mem_cons.mp hmembers).2 hwithin h hx
    · cases h
  | m :: ms, n :: ns, _, _, hmembers, hwithin, h, hx => by
    obtain ⟨hm, hms⟩ := List.forall_mem_cons.mp hmembers
    obtain ⟨hn, hns⟩ := List.forall_mem_cons.mp hwithin
    rw [readItems] at h
    obtain ⟨x', hread, h⟩ := ok_of_bind h
    exact readItems_keeps hms hns h (hm _ _ _ _ hn hread hx)

/-- What holds of the blank structure and is kept by every member holds of every structure that is
read. -/
theorem yields (hblank : P r.blank) (hmembers : ∀ m ∈ r.members, m.Keeps k P) :
    r.format.Yields (k + 1) P := by
  intro source n x hwithin h
  change r.read source n = .ok x at h
  cases n with
  | object members ending =>
    rw [read] at h
    obtain ⟨inner, henter, h⟩ := ok_of_bind h
    obtain ⟨j, hj, hinner⟩ := hwithin.members henter
    obtain rfl := Nat.succ.inj hj
    obtain ⟨⟨seen, x'⟩, hread, h⟩ := ok_of_bind h
    obtain ⟨-, -, h⟩ := ok_of_bind h
    split at h
    · cases h
      exact readMembers_keeps hmembers hinner hread hblank
    · cases h
  | list items ending =>
    rw [read] at h
    obtain ⟨inner, henter, h⟩ := ok_of_bind h
    obtain ⟨j, hj, hinner⟩ := hwithin.items henter
    obtain rfl := Nat.succ.inj hj
    exact readItems_keeps hmembers hinner h hblank
  | null | bool _ | number _ | text _ | broken _ => cases h

end Record

namespace Format

variable {α β : Type} {f : Format α} {k : Nat} {P : α → Prop}

theorem option_yields (h : f.Yields k P) : f.option.Yields k fun y => ∀ x, y = some x → P x := by
  rintro source n y hwithin hread x rfl
  by_cases hn : n = .null
  · subst hn
    cases hread
  · rw [option_read hn] at hread
    obtain ⟨x', hx, heq⟩ := ok_of_map hread
    cases heq
    exact h _ _ _ hwithin hx

/-- What a check makes of the values it lets pass. -/
theorem filtered_yields {write : β → α} {read : α → Option β} {Q : β → Prop}
    (h : ∀ x y, read x = some y → Q y) : (f.filtered write read).Yields k Q := by
  intro source n y _ hread
  simp only [filtered] at hread
  split at hread
  · cases hread
  · split at hread
    · rename_i hy
      cases hread
      exact h _ _ hy
    · cases hread

theorem readItems_yields (h : f.Yields k P) {source : Source} :
    ∀ {items : List Node} {xs : List α}, (∀ n ∈ items, source.Within n k) →
      f.readItems source items = .ok xs → ∀ x ∈ xs, P x
  | [], _, _, hread => by
    cases hread
    exact nofun
  | n :: ns, _, hwithin, hread => by
    obtain ⟨hn, hns⟩ := List.forall_mem_cons.mp hwithin
    rw [readItems] at hread
    obtain ⟨x, hx, hread⟩ := ok_of_bind hread
    obtain ⟨xs, hxs, hread⟩ := ok_of_bind hread
    cases hread
    exact List.forall_mem_cons.mpr ⟨h _ _ _ hn hx, readItems_yields h hns hxs⟩

theorem list_yields (h : f.Yields k P) : f.list.Yields (k + 1) fun xs => ∀ x ∈ xs, P x := by
  intro source n xs hwithin hread
  cases n with
  | list items ending =>
    obtain ⟨inner, henter, hread⟩ := ok_of_bind hread
    obtain ⟨j, hj, hinner⟩ := hwithin.items henter
    obtain rfl := Nat.succ.inj hj
    obtain ⟨xs', hitems, hread⟩ := ok_of_bind hread
    obtain ⟨-, -, hread⟩ := ok_of_bind hread
    cases hread
    exact readItems_yields h hinner hitems
  | null | bool _ | number _ | text _ | object _ _ | broken _ => cases hread

/-- A free value that may be absent is read back as itself, if it is there: it has been settled, and is
not deeper than the levels that could be opened. -/
theorem option_free_yields : free.option.Yields k fun y => ∀ v, y = some v → v.Free k := by
  rintro source n y hwithin hread v rfl
  have hn : n ≠ .null := by
    rintro rfl
    cases hread
  rw [option_read hn] at hread
  obtain ⟨v', hv, heq⟩ := ok_of_map hread
  cases heq
  obtain ⟨w, hw, rfl⟩ := ok_of_map hv
  exact ⟨settled_settled w, settled_ne_null (Node.free_ne_null hn hw),
    Nat.le_trans (depth_settled w) (Node.depth_free n hwithin hw)⟩

end Format

namespace Variant

variable {α β : Type} {k : Nat} {P : α → Prop} {name : String}

theorem of_yields {f : Format β} {wrap : β → α} {Q : β → Prop} (h : f.Yields k Q)
    (hwrap : ∀ y, Q y → P (wrap y)) : (of name f wrap).Yields k P := by
  intro source n x hwithin hread
  obtain ⟨y, hy, rfl⟩ := ok_of_map hread
  exact hwrap y (h _ _ _ hwithin hy)

theorem mem_of_find {variants : List (Variant α)} {v : Variant α} (h : find variants name = .ok v) :
    v ∈ variants := by
  unfold find at h
  split at h
  · rename_i hfind
    cases h
    exact List.mem_of_find?_eq_some hfind
  · cases h

end Variant

/-- What holds of every variant's content holds of whatever is read by the name of a variant. -/
theorem Format.choice_yields {α : Type} {variants : List (Variant α)} {write : α → String × Json}
    {k : Nat} {P : α → Prop} (h : ∀ v ∈ variants, v.Yields k P) :
    (Format.choice variants write).Yields (k + 1) P := by
  intro source n x hwithin hread
  cases source with
  | held =>
    change readHeldChoice variants n = .ok x at hread
    unfold readHeldChoice at hread
    split at hread
    · rename_i key n ending
      obtain ⟨j, hj, hinner⟩ := hwithin.members rfl
      obtain rfl := Nat.succ.inj hj
      obtain ⟨name, -, hread⟩ := ok_of_bind hread
      obtain ⟨variant, hfind, hread⟩ := ok_of_bind hread
      exact h variant (Variant.mem_of_find hfind) _ _ _ (hinner _ List.mem_cons_self) hread
    · cases hread
  | text m =>
    change readChoice variants (.text m) n = .ok x at hread
    cases n with
    | object members ending =>
      rw [readChoice] at hread
      obtain ⟨inner, henter, hread⟩ := ok_of_bind hread
      obtain ⟨j, hj, hinner⟩ := hwithin.members henter
      obtain rfl := Nat.succ.inj hj
      cases members with
      | nil =>
        obtain ⟨-, -, hread⟩ := ok_of_bind hread
        cases hread
      | cons member rest =>
        obtain ⟨name, -, hread⟩ := ok_of_bind hread
        obtain ⟨variant, hfind, hread⟩ := ok_of_bind hread
        obtain ⟨x', hx, hread⟩ := ok_of_bind hread
        have hP := h variant (Variant.mem_of_find hfind) _ _ _ (hinner _ List.mem_cons_self) hx
        split at hread
        · obtain ⟨-, -, hread⟩ := ok_of_bind hread
          cases hread
          exact hP
        · cases hread
    | text s => cases s <;> cases hread
    | null | bool _ | number _ | list _ _ | broken _ => cases hread

end Json
end TransitPush
