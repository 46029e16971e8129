import Mathlib.Data.List.Basic
/-!
# Texts joined with a mark

Two texts with a mark between them can be taken apart again if it is known which of the marks is the one
between them: the one after so many others, the first one, or the last one.
-/
namespace TransitPush

variable {α : Type} [DecidableEq α] {m : α} {q q' k k' : List α}

/-- Where a text is split at a mark is known if it is known how many marks come before. -/
theorem eq_of_append_mark (hcount : q.count m = q'.count m) (h : q ++ m :: k = q' ++ m :: k') :
    q = q' ∧ k = k' := by
  induction q generalizing q' with
  | nil =>
    cases q' with
    | nil => exact ⟨rfl, (List.cons.inj h).2⟩
    | cons c q' =>
      obtain ⟨rfl, -⟩ := List.cons.inj h
      simp at hcount
  | cons c q ih =>
    cases q' with
    | nil =>
      obtain ⟨rfl, -⟩ := List.cons.inj h
      simp at hcount
    | cons c' q' =>
      obtain ⟨rfl, hrest⟩ := List.cons.inj h
      simp only [List.count_cons, Nat.add_right_cancel_iff] at hcount
      obtain ⟨rfl, hk⟩ := ih hcount hrest
      exact ⟨rfl, hk⟩

theorem eq_of_append_first_mark (hq : ¬ m ∈ q) (hq' : ¬ m ∈ q') (h : q ++ m :: k = q' ++ m :: k') :
    q = q' ∧ k = k' :=
  eq_of_append_mark (by rw [List.count_eq_zero_of_not_mem hq, List.count_eq_zero_of_not_mem hq']) h

theorem eq_of_append_last_mark (hk : ¬ m ∈ k) (hk' : ¬ m ∈ k') (h : q ++ m :: k = q' ++ m :: k') :
    q = q' ∧ k = k' := by
  have hcount := congrArg (List.count m) h
  simp only [List.count_append, List.count_cons_self, List.count_eq_zero_of_not_mem hk,
    List.count_eq_zero_of_not_mem hk', Nat.add_right_cancel_iff] at hcount
  exact eq_of_append_mark hcount h

end TransitPush
