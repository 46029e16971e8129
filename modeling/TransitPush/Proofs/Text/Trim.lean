import Mathlib.Data.List.DropRight
import TransitPush.Text.Blank
/-!
# Texts without blanks around them

A text is as trimming leaves it exactly if neither of its ends is blank. So trimming twice is trimming
once, and texts put one behind the other stay trimmed.

* `Text.trim_eq_self`: what trimming leaves alone.
* `Text.trim_trim`, `Text.trim_append`: the two consequences.
-/
namespace TransitPush.Text

/-- Neither the first nor the last character is blank. -/
def Bare (cs : List Char) : Prop :=
  (∀ c, cs.head? = some c → isBlank c = false) ∧ ∀ c, cs.getLast? = some c → isBlank c = false

variable {cs ds : List Char} {s t : String}

theorem head?_dropWhile {c : Char} (h : (cs.dropWhile isBlank).head? = some c) :
    isBlank c = false := by
  have hnot := List.head?_dropWhile_not isBlank cs
  rwa [h] at hnot

theorem trimChars_eq : trimChars cs = (cs.dropWhile isBlank).rdropWhile isBlank := rfl

theorem bare_trimChars : Bare (trimChars cs) := by
  constructor
  · intro c hc
    -- what is cut off at the end leaves the first character alone, unless nothing is left
    obtain ⟨rest, hrest⟩ := List.rdropWhile_prefix isBlank (cs.dropWhile isBlank)
    rw [← trimChars_eq] at hrest
    have hstart : (cs.dropWhile isBlank).head? = some c := by
      rw [← hrest, List.head?_append, hc, Option.some_or]
    exact head?_dropWhile hstart
  · intro c hc
    rw [trimChars, List.getLast?_reverse] at hc
    exact head?_dropWhile hc

theorem trimChars_of_bare (h : Bare cs) : trimChars cs = cs := by
  obtain ⟨hhead, hlast⟩ := h
  have hstart : cs.dropWhile isBlank = cs := by
    rw [List.dropWhile_eq_self_iff]
    intro hlength
    simp [hhead cs[0] (by rw [List.head?_eq_getElem?, List.getElem?_eq_getElem hlength])]
  rw [trimChars_eq, hstart, List.rdropWhile_eq_self_iff]
  intro hne
  simp [hlast _ (List.getLast?_eq_some_getLast hne)]

theorem Bare.append (h : Bare cs) (h' : Bare ds) : Bare (cs ++ ds) := by
  constructor
  · intro c hc
    rw [List.head?_append, Option.or_eq_some_iff] at hc
    rcases hc with hc | ⟨-, hc⟩
    · exact h.1 c hc
    · exact h'.1 c hc
  · intro c hc
    rw [List.getLast?_append, Option.or_eq_some_iff] at hc
    rcases hc with hc | ⟨-, hc⟩
    · exact h'.2 c hc
    · exact h.2 c hc

/-- A text is left alone if neither of its ends is blank. -/
theorem trim_eq_self : trim s = s ↔ Bare s.toList := by
  constructor
  · intro h
    rw [← h, trim, String.toList_ofList]
    exact bare_trimChars
  · intro h
    rw [trim, trimChars_of_bare h, String.ofList_toList]

theorem trim_trim : trim (trim s) = trim s := by
  rw [trim_eq_self, trim, String.toList_ofList]
  exact bare_trimChars

theorem trim_append (hs : trim s = s) (ht : trim t = t) : trim (s ++ t) = s ++ t := by
  rw [trim_eq_self] at *
  rw [String.toList_append]
  exact hs.append ht

theorem isBlankText_eq_false : isBlankText s = false ↔ trim s ≠ "" := by
  simp [isBlankText]

end TransitPush.Text
