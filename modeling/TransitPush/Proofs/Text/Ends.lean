import Mathlib.Data.List.TakeWhile
/-!
# Where a class of characters ends

A reader takes characters as long as they are of a class. What it takes from a text does not change
with what is put behind the text, if that does not begin with a character of the class.
-/
namespace TransitPush

variable {α : Type} {p q : α → Bool} {s r : List α} {c : α}

/-- A row does not begin with an element of a class. -/
def Ends (p : α → Bool) (r : List α) : Prop :=
  ∀ c ∈ r.head?, p c = false

theorem ends_nil : Ends p [] := by simp [Ends]

theorem ends_cons (h : p c = false) : Ends p (c :: r) := by simpa [Ends] using h

theorem Ends.mono (h : Ends p r) (hq : ∀ c, q c = true → p c = true) : Ends q r := by
  intro c hc
  have hp := h c hc
  cases hqc : q c with
  | false => rfl
  | true =>
    rw [hq c hqc] at hp
    cases hp

theorem Ends.dropWhile_eq (h : Ends p r) : r.dropWhile p = r := by
  cases r with
  | nil => rfl
  | cons c r => rw [List.dropWhile_cons, h c rfl, if_neg Bool.false_ne_true]

theorem takeWhile_append (h : Ends p r) : (s ++ r).takeWhile p = s.takeWhile p := by
  induction s with
  | nil =>
    cases r with
    | nil => rfl
    | cons c r => simp [h c rfl]
  | cons c s ih => rw [List.cons_append, List.takeWhile_cons, List.takeWhile_cons, ih]

theorem dropWhile_append (h : Ends p r) : (s ++ r).dropWhile p = s.dropWhile p ++ r := by
  induction s with
  | nil => exact h.dropWhile_eq
  | cons c s ih =>
    rw [List.cons_append, List.dropWhile_cons, List.dropWhile_cons, ih]
    split <;> rfl

end TransitPush
