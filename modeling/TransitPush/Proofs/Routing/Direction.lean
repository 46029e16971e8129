import TransitPush.Proofs.Table
import TransitPush.Routing.Matching
/-!
# Travel direction

A row of stops goes a subscriber's way if a stop at which they get on comes somewhere before a stop
at which they get off. The matcher only looks behind the first stop at which they get on; that is
enough.

* `Topology.mem_expand`: the stops of a list and the quays of the stations among them.
* `Topology.affected_iff_passes`: the matcher finds exactly the rows that go the subscriber's way.
* `Topology.passes_iff_positions`, `Topology.Passes.insert`: the same by positions in the row, and that
  it does not matter what else is in it.
* `Topology.affected_by_positions`: both together, with what the matcher looks at.
-/
namespace TransitPush.Topology

/-- The stop is one of those given, or a quay of a station among them. -/
def Serves (t : Topology) (stops : List String) (stop : String) : Prop :=
  stop ∈ stops ∨ ∃ station ∈ stops, Ref.isStation station = true ∧ stop ∈ t.quaysOf station

/-- The row passes a from stop of the subscription, and somewhere behind it a to stop. -/
def Passes (t : Topology) (s : Subscription) (row : List String) : Prop :=
  ∃ origin destination, t.Serves s.fromStops.toList origin ∧
    t.Serves s.toStops.toList destination ∧ [origin, destination].Sublist row

theorem mem_expand {t : Topology} {stops : List String} {stop : String} :
    stop ∈ t.expand stops ↔ t.Serves stops stop := by
  have hfold : ∀ (stops : List String) (found : RefSet),
      stop ∈ stops.foldl (fun found x =>
        (if Ref.isStation x then found.insertAll (t.quaysOf x).toList else found).insert x) found ↔
      stop ∈ found ∨ t.Serves stops stop := by
    intro stops
    induction stops with
    | nil => simp [Serves]
    | cons x rest ih =>
      intro found
      rw [List.foldl_cons, ih, RefSet.mem_insert]
      by_cases hx : Ref.isStation x = true
      · rw [if_pos hx, RefSet.mem_insertAll, RefSet.mem_toList]
        simp only [Serves, List.mem_cons, exists_eq_or_imp, hx, true_and]
        tauto
      · rw [if_neg hx]
        simp only [Serves, List.mem_cons, exists_eq_or_imp, hx]
        tauto
  rw [expand, hfold, or_iff_right (RefSet.not_mem_empty stop)]

theorem not_serves_nil {t : Topology} {stop : String} : ¬ t.Serves [] stop := by
  simp [Serves]

/-- Behind the first element that starts, some element ends: a start comes before an end. -/
theorem any_behind_start (starts ends : RefSet) (row : List String) :
    (match row.dropWhile fun stop => stop ∉ starts with
      | [] => false
      | _ :: later => later.any fun stop => stop ∈ ends) = true ↔
      ∃ a b, a ∈ starts ∧ b ∈ ends ∧ [a, b].Sublist row := by
  induction row with
  | nil => simp
  | cons x rest ih =>
    by_cases hx : x ∈ starts
    · rw [List.dropWhile_cons_of_neg (by simpa using hx)]
      simp only [List.any_eq_true, decide_eq_true_eq]
      constructor
      · intro hbehind
        obtain ⟨b, hb, hend⟩ := hbehind
        exact ⟨x, b, hx, hend, (List.singleton_sublist.mpr hb).cons_cons x⟩
      · intro hserves
        obtain ⟨a, b, -, hend, hsub⟩ := hserves
        exact ⟨b, hsub.tail.subset List.mem_cons_self, hend⟩
    · rw [List.dropWhile_cons_of_pos (by simpa using hx), ih]
      constructor
      · intro hserves
        obtain ⟨a, b, ha, hb, hsub⟩ := hserves
        exact ⟨a, b, ha, hb, hsub.cons x⟩
      · intro hserves
        obtain ⟨a, b, ha, hb, hsub⟩ := hserves
        rcases List.sublist_cons_iff.mp hsub with hsub | ⟨r, hr, -⟩
        · exact ⟨a, b, ha, hb, hsub⟩
        · cases hr
          exact absurd ha hx

theorem affected_iff_passes {t : Topology} {s : Subscription} {row : List String} :
    t.affected s row = true ↔ t.Passes s row := by
  unfold affected
  split
  · rename_i hempty
    have hnone : ∀ {rs : RefSet} {stop}, rs.isEmpty = true → ¬ t.Serves rs.toList stop := by
      intro rs stop hrs
      rw [RefSet.toList, List.isEmpty_iff.mp hrs]
      exact not_serves_nil
    constructor
    · intro h
      cases h
    · intro hpasses
      obtain ⟨origin, destination, horigin, hdestination, -⟩ := hpasses
      rcases Bool.or_eq_true_iff.mp hempty with h | h
      · exact absurd horigin (hnone h)
      · exact absurd hdestination (hnone h)
  · refine (any_behind_start _ _ row).trans ?_
    simp only [mem_expand]
    exact Iff.rfl

/-! ## Positions -/

variable {t : Topology} {s : Subscription} {row : List String}

/-- Two stops are in a row one behind the other if they have positions in this order. -/
theorem pair_sublist_iff {a b : String} : [a, b].Sublist row ↔
    ∃ i j : Nat, i < j ∧ row[i]? = some a ∧ row[j]? = some b := by
  induction row with
  | nil => simp
  | cons x rest ih =>
    rw [List.sublist_cons_iff, ih]
    constructor
    · intro hsub
      rcases hsub with ⟨i, j, hij, ha, hb⟩ | ⟨r, hr, hb⟩
      · exact ⟨i + 1, j + 1, by omega, by simpa using ha, by simpa using hb⟩
      · cases hr
        obtain ⟨j, hj⟩ := List.getElem?_of_mem (List.singleton_sublist.mp hb)
        exact ⟨0, j + 1, by omega, by simp, by simpa using hj⟩
    · intro hpositions
      obtain ⟨i, j, hij, ha, hb⟩ := hpositions
      obtain ⟨j, rfl⟩ : ∃ k, j = k + 1 := ⟨j - 1, by omega⟩
      rw [List.getElem?_cons_succ] at hb
      cases i with
      | zero =>
        right
        obtain rfl : x = a := by simpa using ha
        exact ⟨[b], rfl, List.singleton_sublist.mpr (List.mem_of_getElem? hb)⟩
      | succ i =>
        left
        rw [List.getElem?_cons_succ] at ha
        exact ⟨i, j, by omega, ha, hb⟩

theorem passes_iff_positions : t.Passes s row ↔
    ∃ (i j : Nat) (origin destination : String), i < j ∧ row[i]? = some origin ∧
      row[j]? = some destination ∧ t.Serves s.fromStops.toList origin ∧
      t.Serves s.toStops.toList destination := by
  simp only [Passes, pair_sublist_iff]
  constructor
  · intro hpasses
    obtain ⟨origin, destination, horigin, hdestination, i, j, hij, hi, hj⟩ := hpasses
    exact ⟨i, j, origin, destination, hij, hi, hj, horigin, hdestination⟩
  · intro hpositions
    obtain ⟨i, j, origin, destination, hij, hi, hj, horigin, hdestination⟩ := hpositions
    exact ⟨origin, destination, horigin, hdestination, i, j, hij, hi, hj⟩

/-- Stops that are inserted anywhere leave the others in their order. -/
theorem Passes.insert {longer : List String} (h : t.Passes s row) (hsub : row.Sublist longer) :
    t.Passes s longer := by
  obtain ⟨origin, destination, horigin, hdestination, hpair⟩ := h
  exact ⟨origin, destination, horigin, hdestination, hpair.trans hsub⟩

/-- Without a stop at which the subscriber gets on there is nothing to look behind. -/
theorem affected_of_no_start
    (h : (row.findIdx? fun stop => stop ∈ t.expand s.fromStops.toList) = none) :
    t.affected s row = false := by
  rw [List.findIdx?_eq_none_iff] at h
  rw [← Bool.not_eq_true, affected_iff_passes]
  intro hpasses
  obtain ⟨origin, destination, horigin, -, hpair⟩ := hpasses
  have hmem : origin ∈ row := hpair.subset List.mem_cons_self
  exact absurd (mem_expand.mpr horigin) (by simpa using h origin hmem)

/-- The row from the first stop at which the subscriber gets on is that stop and what is behind it. -/
theorem affected_of_first_start {i : Nat}
    (h : (row.findIdx? fun stop => stop ∈ t.expand s.fromStops.toList) = some i) :
    i + 1 ≤ row.length ∧
      t.affected s row = (row.drop (i + 1)).any fun stop => stop ∈ t.expand s.toStops.toList := by
  obtain ⟨hlength, hfirst⟩ := List.findIdx?_eq_some_iff_findIdx_eq.mp h
  refine ⟨hlength, ?_⟩
  have hdrop : (row.dropWhile fun stop => stop ∉ t.expand s.fromStops.toList) =
      row[i] :: row.drop (i + 1) := by
    rw [List.dropWhile_eq_drop_findIdx_not, ← List.drop_eq_getElem_cons hlength]
    simp only [decide_not, Bool.not_not, hfirst]
  have hbehind := any_behind_start (t.expand s.fromStops.toList) (t.expand s.toStops.toList) row
  rw [hdrop] at hbehind
  rw [Bool.eq_iff_iff, affected_iff_passes]
  dsimp only at hbehind
  rw [hbehind]
  simp only [mem_expand]
  exact Iff.rfl

/-- **Direction by positions.** The matcher finds a row exactly if some position has a stop at which the
subscriber gets on and a later one a stop at which they get off. It looks only behind the first position
with a stop to get on, which is always in the row. Stops inserted into a row that is found, wherever and
whichever, do not change that it is found. -/
theorem affected_by_positions (t : Topology) (s : Subscription) (row : List String) :
    (t.affected s row = true ↔
      ∃ (i j : Nat) (origin destination : String), i < j ∧ row[i]? = some origin ∧
        row[j]? = some destination ∧ t.Serves s.fromStops.toList origin ∧
        t.Serves s.toStops.toList destination) ∧
    (∀ i, (row.findIdx? fun stop => stop ∈ t.expand s.fromStops.toList) = some i →
      i + 1 ≤ row.length ∧
      t.affected s row = (row.drop (i + 1)).any fun stop => stop ∈ t.expand s.toStops.toList) ∧
    ((row.findIdx? fun stop => stop ∈ t.expand s.fromStops.toList) = none →
      t.affected s row = false) ∧
    ∀ longer : List String, row.Sublist longer → t.affected s row = true →
      t.affected s longer = true := by
  refine ⟨affected_iff_passes.trans passes_iff_positions, fun i hfirst => ?_, affected_of_no_start,
    fun longer hsub haffected => ?_⟩
  · exact affected_of_first_start hfirst
  · have hpasses := affected_iff_passes.mp haffected
    exact affected_iff_passes.mpr (hpasses.insert hsub)

/-- Round a loop the stop to get off comes before the first stop to get on, and behind it again. -/
example : empty.affected (Subscription.blank.withStops "A" "B") ["B", "A", "C", "B"] = true ∧
    empty.affected (Subscription.blank.withStops "A" "B") ["B", "C", "A"] = false := by
  decide

end TransitPush.Topology
