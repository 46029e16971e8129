import TransitPush.Time.Timestamp
/-!
# The order of timestamps

Timestamps are ordered by their seconds and then by their nanoseconds. Leap seconds have their place
in this order too, right before the next minute, so nothing here asks for a clock's times.

* `Timestamp.lt_earlier`, `Timestamp.lt_foldl_earlier`: what lies before the earliest of several times.
-/
namespace TransitPush

namespace Timestamp

variable {a b c : Timestamp}

theorem lt_iff_parts :
    a < b ↔ a.second < b.second ∨ a.second = b.second ∧ a.nano < b.nano :=
  Iff.rfl

theorem not_lt : ¬ a < b ↔ b ≤ a := Iff.rfl

theorem not_le : ¬ a ≤ b ↔ b < a := Classical.not_not

theorem lt_irrefl (a : Timestamp) : ¬ a < a := by
  rw [lt_iff_parts]
  omega

theorem lt_trans (hab : a < b) (hbc : b < c) : a < c := by
  rw [lt_iff_parts] at *
  omega

theorem lt_of_lt_of_le (hab : a < b) (hbc : b ≤ c) : a < c := by
  rw [← not_lt] at hbc
  rw [lt_iff_parts] at *
  omega

theorem lt_of_le_of_lt (hab : a ≤ b) (hbc : b < c) : a < c := by
  rw [← not_lt] at hab
  rw [lt_iff_parts] at *
  omega

theorem le_of_lt (hab : a < b) : a ≤ b :=
  not_lt.mp fun hba => lt_irrefl a (lt_trans hab hba)

theorem le_refl (a : Timestamp) : a ≤ a :=
  lt_irrefl a

theorem le_trans (hab : a ≤ b) (hbc : b ≤ c) : a ≤ c :=
  not_lt.mp fun hca => not_lt.mpr hbc (lt_of_lt_of_le hca hab)

theorem lt_earlier : c < a.earlier b ↔ c < a ∧ c < b := by
  unfold earlier
  split
  · rename_i hba
    exact ⟨fun hcb => ⟨lt_trans hcb hba, hcb⟩, fun h => h.2⟩
  · rename_i hba
    exact ⟨fun hca => ⟨hca, lt_of_lt_of_le hca hba⟩, fun h => h.1⟩

theorem lt_foldl_earlier {ends : List Timestamp} :
    c < ends.foldl earlier a ↔ c < a ∧ ∀ t ∈ ends, c < t := by
  induction ends generalizing a with
  | nil => simp
  | cons t ends ih => rw [List.foldl_cons, ih, lt_earlier, List.forall_mem_cons, and_assoc]

end Timestamp
end TransitPush
