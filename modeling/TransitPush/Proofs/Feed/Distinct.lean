import TransitPush.Proofs.Feed.Returning
/-!
# Journeys are told apart by their documents

What is written for a journey has no doubles, only texts, truth values and times as texts. So how doubles
are rounded does not matter, and every journey is read back from its document. Two journeys with the same
document are then the same.

* `Json.Format.Exact`: no double is written in a format. A format put together from such ones is one.
* `JourneyUpdate.exact`: journeys are written so.
* `Event.encode_journey_inj`: journeys with the same document are the same.
-/
namespace TransitPush

namespace Json

theorem itemsDoubles_eq_nil {items : List Json} :
    itemsDoubles items = [] ↔ ∀ v ∈ items, v.doubles = [] := by
  induction items with
  | nil => simp [itemsDoubles]
  | cons v vs ih => rw [itemsDoubles, List.append_eq_nil_iff, ih, List.forall_mem_cons]

theorem membersDoubles_eq_nil {members : List (String × Json)} :
    membersDoubles members = [] ↔ ∀ m ∈ members, m.2.doubles = [] := by
  induction members with
  | nil => simp [membersDoubles]
  | cons m ms ih => rw [membersDoubles, List.append_eq_nil_iff, ih, List.forall_mem_cons]

/-- Nothing that is written is a double. -/
def Format.Exact {α : Type} (f : Format α) : Prop :=
  ∀ x, (f.toJson x).doubles = []

/-- Nothing that is written for the member is a double. -/
def Member.Exact {α : Type} (m : Member α) : Prop :=
  ∀ x v, m.write x = some v → v.doubles = []

section
variable {α β : Type} {f : Format β} {name : String} {presence : Presence}

namespace Format

@[simp] theorem text_exact : text.Exact := fun _ => rfl

@[simp] theorem bool_exact : bool.Exact := fun _ => rfl

theorem filtered_exact {write : α → β} {read : β → Option α} (h : f.Exact) :
    (filtered f write read).Exact :=
  fun x => h (write x)

theorem option_exact (h : f.Exact) : f.option.Exact := by
  intro x
  cases x with
  | none => rfl
  | some x => exact h x

theorem list_exact (h : f.Exact) : f.list.Exact := by
  intro xs
  refine itemsDoubles_eq_nil.mpr fun v hv => ?_
  obtain ⟨x, -, rfl⟩ := List.mem_map.mp hv
  exact h x

end Format

namespace Member

theorem field_exact {get : α → β} {set : β → α → α} {leftOut : β → Bool} (h : f.Exact) :
    (field name presence f get set leftOut).Exact := by
  intro x v hv
  obtain ⟨-, hwritten⟩ := Option.ite_none_left_eq_some.mp hv
  cases hwritten
  exact h (get x)

@[simp] theorem nullable_exact {get : α → Option β} {set : Option β → α → α} (h : f.Exact) :
    (nullable name f get set).Exact :=
  field_exact (Format.option_exact h)

@[simp] theorem optional_exact {get : α → Option β} {set : Option β → α → α} (h : f.Exact) :
    (optional name f get set).Exact :=
  field_exact (Format.option_exact h)

@[simp] theorem listed_exact {get : α → List β} {set : List β → α → α} (h : f.Exact) :
    (listed name f get set).Exact :=
  field_exact (Format.list_exact h)

end Member

theorem Record.format_exact {r : Record α} (h : ∀ m ∈ r.members, m.Exact) : r.format.Exact := by
  intro x
  refine membersDoubles_eq_nil.mpr fun written hwritten => ?_
  obtain ⟨m, hm, hvalue⟩ := List.mem_filterMap.mp hwritten
  obtain ⟨v, hv, rfl⟩ := Option.map_eq_some_iff.mp hvalue
  exact h m hm x v hv

end
end Json

/-! ## Journeys -/

open Json (Format Record)

@[simp] theorem Timestamp.exact : Timestamp.format.Exact :=
  Format.filtered_exact Format.text_exact

@[simp] theorem Call.exact : Call.record.format.Exact :=
  Record.format_exact (by simp [Call.record])

theorem JourneyUpdate.exact : JourneyUpdate.format.Exact :=
  Record.format_exact (by simp [JourneyUpdate.record])

namespace Event

theorem readsBack_journey (u : JourneyUpdate) :
    (Event.format.toJson (.journey u)).ReadsBack := by
  have hnone : (Event.format.toJson (.journey u)).doubles = [] :=
    (List.append_nil _).trans (JourneyUpdate.exact u)
  intro d hd
  rw [hnone] at hd
  cases hd

/-- Journeys with the same document are the same. -/
theorem encode_journey_inj {u v : JourneyUpdate}
    (h : Event.format.encode (.journey u) = Event.format.encode (.journey v)) : u = v := by
  have hback : ∀ w, Event.format.decode (Event.format.encode (.journey w)) = .ok (.journey w) :=
    fun w => Format.decode_encode (Event.returns trivial) (readsBack_journey w)
  have hu := hback u
  rw [h, hback v] at hu
  exact (Event.journey.inj (Except.ok.inj hu)).symm

end Event
end TransitPush
