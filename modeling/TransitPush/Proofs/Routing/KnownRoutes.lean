import Mathlib.Data.List.Induction
import TransitPush.Proofs.Table
import TransitPush.Proofs.Time.Order
import TransitPush.Routing.LiveRoutes
/-!
# How long a live route is known

A live route has a row of stops and the time at which its journey was last seen, and the two are
written by different operations. Rows come from updates that list all stops and from nowhere else but
the routes that are put in by hand; the time comes from every update that names the journey, and it
alone decides what an eviction forgets.

* `LiveRoutes.get?_update`: an update as each journey sees it.
* `RouteOp.effect_apply`: an operation gives a journey its row, sees it, forgets it, or leaves it alone.
* `RouteOp.Stands`: the row of stops that the history of a journey leaves standing.
* `LiveRoutes.rows_standing`: the routes after a run are those that stand, and what updates and
  evictions do to them.
-/
namespace TransitPush

/-! ## Updates as one journey sees them -/

def LiveRoute.seenAt (now : Timestamp) (r : LiveRoute) : LiveRoute :=
  { r with seen := now }

namespace LiveRoutes

variable {rs : LiveRoutes} {u : JourneyUpdate} {now : Timestamp} {ref : String}

theorem get?_touch (first : String) : (rs.touch now first).get? ref =
    if ref = first then (rs.get? first).map (LiveRoute.seenAt now) else rs.get? ref := by
  unfold touch
  cases hget : rs.get? first with
  | none =>
    dsimp only
    split
    · rename_i hsame
      rw [hsame, hget]
      rfl
    · rfl
  | some route => exact Table.get?_insert _ _ _ _

theorem get?_putAll {refs stops : List String} :
    (refs.foldl (fun rs ref => rs.put ref stops now) rs).get? ref =
      if ref ∈ refs then some ⟨stops, now⟩ else rs.get? ref := by
  induction refs generalizing rs with
  | nil => rfl
  | cons first refs ih =>
    rw [List.foldl_cons, ih, put, Table.get?_insert]
    by_cases hfirst : ref = first <;> by_cases hrest : ref ∈ refs <;> simp [hfirst, hrest]

/-- A journey that is named twice is seen once. -/
theorem get?_touchAll {refs : List String} :
    (refs.foldl (fun rs ref => rs.touch now ref) rs).get? ref =
      if ref ∈ refs then (rs.get? ref).map (LiveRoute.seenAt now) else rs.get? ref := by
  induction refs generalizing rs with
  | nil => rfl
  | cons first refs ih =>
    rw [List.foldl_cons, ih, get?_touch]
    by_cases hfirst : ref = first
    · subst hfirst
      by_cases hrest : ref ∈ refs
      · rw [if_pos hrest, if_pos rfl, if_pos List.mem_cons_self, Option.map_map]
        rfl
      · rw [if_neg hrest, if_pos rfl, if_pos List.mem_cons_self]
    · simp only [List.mem_cons, hfirst, false_or, if_false]

theorem get?_update : (rs.update u now).get? ref =
    if ref ∈ u.journeyRefs then
      if u.isComplete then
        if u.stopSequence = [] then rs.get? ref else some ⟨u.stopSequence, now⟩
      else (rs.get? ref).map (LiveRoute.seenAt now)
    else rs.get? ref := by
  unfold update
  cases u.isComplete with
  | false => exact get?_touchAll
  | true =>
    simp only [if_true, List.isEmpty_iff]
    split
    · rw [ite_self]
    · exact get?_putAll

end LiveRoutes

/-! ## Operations -/

inductive RouteOp where
  | put (ref : String) (stops : List String) (now : Timestamp)
  | update (u : JourneyUpdate) (now : Timestamp)
  | remove (ref : String)
  | evict (cutoff : Timestamp)

namespace RouteOp

def apply (rs : LiveRoutes) : RouteOp → LiveRoutes
  | put ref stops now => rs.put ref stops now
  | update u now => rs.update u now
  | remove ref => rs.erase ref
  | evict cutoff => (rs.evict cutoff).2

def run (rs : LiveRoutes) (ops : List RouteOp) : LiveRoutes :=
  ops.foldl apply rs

/-- The row of stops that an operation gives a journey: the one put in, or that of an update which
names the journey and lists all its stops. -/
def row? (ref : String) : RouteOp → Option (List String)
  | put r stops _ => if ref = r then some stops else none
  | update u _ =>
    if ref ∈ u.journeyRefs ∧ u.isComplete = true ∧ u.stopSequence ≠ [] then some u.stopSequence
    else none
  | remove _ | evict _ => none

/-- When an operation sees a journey. A complete update without stops sees none. -/
def seen? (ref : String) : RouteOp → Option Timestamp
  | put r _ now => if ref = r then some now else none
  | update u now =>
    if ref ∈ u.journeyRefs ∧ (u.isComplete = true → u.stopSequence ≠ []) then some now else none
  | remove _ | evict _ => none

/-- The operation may forget a journey, for whatever reason. -/
def mayForget (ref : String) : RouteOp → Bool
  | put _ _ _ | update _ _ => false
  | remove r => ref = r
  | evict _ => true

def lastSeen (ref : String) (ops : List RouteOp) : Option Timestamp :=
  (ops.filterMap (seen? ref)).getLast?

/-- The row of stops that a run leaves a journey: the last one that it was given, if it was not
removed since, and no eviction since forgot what had last been seen when it had last been. -/
def Stands (ref : String) (stops : List String) (ops : List RouteOp) : Prop :=
  ∃ before op after, ops = before ++ op :: after ∧ op.row? ref = some stops ∧
    (∀ o ∈ after, o.row? ref = none) ∧ remove ref ∉ after ∧
    ∀ first cutoff rest, after = first ++ evict cutoff :: rest →
      ∀ t, lastSeen ref (before ++ op :: first) = some t → cutoff ≤ t

/-! ## One operation and one journey -/

/-- What an operation does to what is known of one journey. -/
inductive Effect (ref : String) (op : RouteOp) (before after : Option LiveRoute) : Prop
  | given (stops : List String) (now : Timestamp) (row : op.row? ref = some stops)
    (seen : op.seen? ref = some now) (after_eq : after = some ⟨stops, now⟩)
  | sighted (now : Timestamp) (row : op.row? ref = none) (seen : op.seen? ref = some now)
    (keeps : op.mayForget ref = false) (after_eq : after = before.map (LiveRoute.seenAt now))
  | removed (op_eq : op = remove ref) (after_eq : after = none)
  | evicted (cutoff : Timestamp) (op_eq : op = evict cutoff)
    (after_eq : after = before.filter fun r => cutoff ≤ r.seen)
  | untouched (row : op.row? ref = none) (seen : op.seen? ref = none)
    (keeps : op.mayForget ref = false) (after_eq : after = before)

theorem effect_apply (rs : LiveRoutes) (op : RouteOp) (ref : String) :
    Effect ref op (rs.get? ref) ((op.apply rs).get? ref) := by
  cases op with
  | put r stops now =>
    have hafter := Table.get?_insert rs r ref ⟨stops, now⟩
    by_cases hr : ref = r
    · rw [if_pos hr] at hafter
      exact .given stops now (if_pos hr) (if_pos hr) hafter
    · rw [if_neg hr] at hafter
      exact .untouched (if_neg hr) (if_neg hr) rfl hafter
  | update u now =>
    have hafter := @LiveRoutes.get?_update rs u now ref
    by_cases hnamed : ref ∈ u.journeyRefs
    · rw [if_pos hnamed] at hafter
      by_cases hcomplete : u.isComplete = true
      · rw [if_pos hcomplete] at hafter
        by_cases hempty : u.stopSequence = []
        · rw [if_pos hempty] at hafter
          exact .untouched (if_neg fun h => h.2.2 hempty) (if_neg fun h => h.2 hcomplete hempty)
            rfl hafter
        · rw [if_neg hempty] at hafter
          exact .given _ now (if_pos ⟨hnamed, hcomplete, hempty⟩) (if_pos ⟨hnamed, fun _ => hempty⟩)
            hafter
      · rw [if_neg hcomplete] at hafter
        exact .sighted now (if_neg fun h => hcomplete h.2.1)
          (if_pos ⟨hnamed, fun h => absurd h hcomplete⟩) rfl hafter
    · rw [if_neg hnamed] at hafter
      exact .untouched (if_neg fun h => hnamed h.1) (if_neg fun h => hnamed h.1) rfl hafter
  | remove r =>
    have hafter := Table.get?_erase rs r ref
    by_cases hr : ref = r
    · subst hr
      exact .removed rfl (hafter.trans (if_pos rfl))
    · rw [if_neg hr] at hafter
      exact .untouched rfl rfl (decide_eq_false hr) hafter
  | evict cutoff => exact .evicted cutoff rfl (Table.get?_filter rs _ ref)

/-! ## Histories -/

variable {ref : String} {stops : List String} {ops : List RouteOp} {op : RouteOp}

theorem run_append_singleton (rs : LiveRoutes) : run rs (ops ++ [op]) = op.apply (run rs ops) :=
  List.foldl_append

theorem lastSeen_append_singleton :
    lastSeen ref (ops ++ [op]) = (op.seen? ref).or (lastSeen ref ops) := by
  unfold lastSeen
  rw [List.filterMap_append, List.getLast?_append]
  cases hseen : op.seen? ref with
  | none => rw [List.filterMap_cons_none hseen]; rfl
  | some t => rw [List.filterMap_cons_some hseen]; rfl

/-- What gives a journey a row has seen it. -/
theorem seen_of_row (h : op.row? ref = some stops) : ∃ t, op.seen? ref = some t := by
  cases op with
  | put r row now =>
    obtain ⟨hr, -⟩ := Option.ite_none_right_eq_some.mp h
    exact ⟨now, if_pos hr⟩
  | update u now =>
    obtain ⟨hgiven, -⟩ := Option.ite_none_right_eq_some.mp h
    exact ⟨now, if_pos ⟨hgiven.1, fun _ => hgiven.2.2⟩⟩
  | remove r => cases h
  | evict cutoff => cases h

theorem Stands.seen (h : Stands ref stops ops) : ∃ t, lastSeen ref ops = some t := by
  obtain ⟨before, op, after, rfl, hrow, -⟩ := h
  obtain ⟨t, ht⟩ := seen_of_row hrow
  have hmem : t ∈ (before ++ op :: after).filterMap (seen? ref) :=
    List.mem_filterMap.mpr ⟨op, List.mem_append_right _ List.mem_cons_self, ht⟩
  exact ⟨_, List.getLast?_eq_some_getLast (List.ne_nil_of_mem hmem)⟩

/-- An operation that gives the journey a row. -/
theorem Stands.given (hrow : op.row? ref = some stops) : Stands ref stops (ops ++ [op]) :=
  ⟨ops, op, [], rfl, hrow, List.forall_mem_nil _, List.not_mem_nil, fun first _ _ h =>
    absurd h.symm (List.append_ne_nil_of_right_ne_nil first (List.cons_ne_nil _ _))⟩

/-- An operation that gives it no other, and does not forget it. -/
theorem Stands.keep (h : Stands ref stops ops) (hrow : op.row? ref = none) (hkept : op ≠ remove ref)
    (hevict : ∀ cutoff, op = evict cutoff → ∀ t, lastSeen ref ops = some t → cutoff ≤ t) :
    Stands ref stops (ops ++ [op]) := by
  obtain ⟨before, giver, after, rfl, hgiven, hlast, hthere, hseen⟩ := h
  refine ⟨before, giver, after ++ [op], ?_, hgiven, ?_, ?_, fun first cutoff rest hsplit => ?_⟩
  · rw [List.append_assoc, List.cons_append]
  · exact List.forall_mem_append.mpr ⟨hlast, List.forall_mem_singleton.mpr hrow⟩
  · rw [List.mem_append, List.mem_singleton]
    exact not_or.mpr ⟨hthere, hkept.symm⟩
  · rcases List.eq_nil_or_concat rest with rfl | ⟨rest, last, rfl⟩
    · obtain ⟨rfl, hop⟩ := List.append_inj' hsplit rfl
      exact hevict cutoff (List.head_eq_of_cons_eq hop)
    · rw [List.concat_eq_append, ← List.cons_append, ← List.append_assoc] at hsplit
      obtain ⟨rfl, -⟩ := List.append_inj' hsplit rfl
      exact hseen first cutoff rest rfl

/-- A row that stands was given last, or it stood before and was kept. -/
theorem Stands.given_or_kept (h : Stands ref stops (ops ++ [op])) :
    op.row? ref = some stops ∨ op.row? ref = none ∧ op ≠ remove ref ∧ Stands ref stops ops ∧
      ∀ cutoff, op = evict cutoff → ∀ t, lastSeen ref ops = some t → cutoff ≤ t := by
  obtain ⟨before, giver, after, hops, hgiven, hlast, hthere, hseen⟩ := h
  rcases List.eq_nil_or_concat after with rfl | ⟨after, last, rfl⟩
  · obtain ⟨-, hop⟩ := List.append_inj' hops rfl
    rw [List.head_eq_of_cons_eq hop]
    exact .inl hgiven
  · rw [List.concat_eq_append] at hops hlast hthere hseen
    rw [← List.cons_append, ← List.append_assoc] at hops
    obtain ⟨rfl, hop⟩ := List.append_inj' hops rfl
    obtain rfl : op = last := List.head_eq_of_cons_eq hop
    obtain ⟨hbefore, hrow⟩ := List.forall_mem_append.mp hlast
    rw [List.mem_append, List.mem_singleton, not_or] at hthere
    refine .inr ⟨hrow op List.mem_cons_self, Ne.symm hthere.2,
      ⟨before, giver, after, rfl, hgiven, hbefore, hthere.1, ?_⟩, ?_⟩
    · rintro first cutoff rest rfl
      exact hseen first cutoff (rest ++ [op]) (by rw [List.append_assoc, List.cons_append])
    · rintro cutoff rfl
      exact hseen after cutoff [] rfl

theorem stands_of_row {row : List String} (hrow : op.row? ref = some row) :
    Stands ref stops (ops ++ [op]) ↔ row = stops := by
  constructor
  · intro h
    rcases h.given_or_kept with hgiven | ⟨hnone, -⟩
    · exact Option.some.inj (hrow.symm.trans hgiven)
    · rw [hrow] at hnone
      cases hnone
  · rintro rfl
    exact .given hrow

theorem stands_of_keeps (hrow : op.row? ref = none) (hkeeps : op.mayForget ref = false) :
    Stands ref stops (ops ++ [op]) ↔ Stands ref stops ops := by
  constructor
  · intro h
    rcases h.given_or_kept with hgiven | ⟨-, -, hstands, -⟩
    · rw [hrow] at hgiven
      cases hgiven
    · exact hstands
  · intro h
    refine h.keep hrow ?_ ?_
    · rintro rfl
      exact absurd hkeeps (by simp [mayForget])
    · rintro cutoff rfl
      cases hkeeps

theorem not_stands_removed : ¬ Stands ref stops (ops ++ [remove ref]) := by
  intro h
  rcases h.given_or_kept with hgiven | ⟨-, hkept, -⟩
  · cases hgiven
  · exact hkept rfl

theorem stands_evicted {cutoff : Timestamp} : Stands ref stops (ops ++ [evict cutoff]) ↔
    Stands ref stops ops ∧ ∀ t, lastSeen ref ops = some t → cutoff ≤ t := by
  constructor
  · intro h
    rcases h.given_or_kept with hgiven | ⟨-, -, hstands, hevict⟩
    · cases hgiven
    · exact ⟨hstands, hevict cutoff rfl⟩
  · rintro ⟨hstands, hevict⟩
    refine hstands.keep rfl nofun fun _ h => ?_
    cases h
    exact hevict

/-- What is known of a journey after a run: the row that stands, and when it was last seen. -/
theorem get?_run {t : Timestamp} : (run ∅ ops).get? ref = some ⟨stops, t⟩ ↔
    Stands ref stops ops ∧ lastSeen ref ops = some t := by
  induction ops using List.reverseRecOn generalizing t with
  | nil =>
    refine ⟨nofun, fun h => ?_⟩
    cases h.2
  | append_singleton ops op ih =>
    rw [run_append_singleton, lastSeen_append_singleton]
    cases effect_apply (run ∅ ops) op ref with
    | given row now hrow hseen hafter =>
      rw [hafter, stands_of_row hrow, hseen, Option.some_or, Option.some_inj, Option.some_inj,
        LiveRoute.mk.injEq]
    | sighted now hrow hseen hkeeps hafter =>
      have hknown : (∃ t, (run ∅ ops).get? ref = some ⟨stops, t⟩) ↔ Stands ref stops ops := by
        simp only [ih, exists_and_left]
        exact and_iff_left_of_imp Stands.seen
      rw [hafter, stands_of_keeps hrow hkeeps, ← hknown, hseen, Option.some_or, Option.some_inj,
        Option.map_eq_some_iff]
      constructor
      · rintro ⟨⟨row, t⟩, hget, hsame⟩
        cases hsame
        exact ⟨⟨t, hget⟩, rfl⟩
      · rintro ⟨⟨before, hget⟩, rfl⟩
        exact ⟨_, hget, rfl⟩
    | removed hop hafter =>
      subst hop
      rw [hafter]
      exact ⟨nofun, fun h => absurd h.1 not_stands_removed⟩
    | evicted cutoff hop hafter =>
      subst hop
      rw [hafter, stands_evicted, Option.filter_eq_some_iff, ih, decide_eq_true_eq, seen?,
        Option.none_or]
      constructor
      · rintro ⟨⟨hstands, hlast⟩, hle⟩
        refine ⟨⟨hstands, fun t' ht' => ?_⟩, hlast⟩
        cases hlast.symm.trans ht'
        exact hle
      · rintro ⟨⟨hstands, hevict⟩, hlast⟩
        exact ⟨⟨hstands, hlast⟩, hevict t hlast⟩
    | untouched hrow hseen hkeeps hafter =>
      rw [hafter, stands_of_keeps hrow hkeeps, hseen, Option.none_or, ih]

end RouteOp

/-! ## What a run leaves -/

namespace LiveRoutes

open RouteOp

variable {ref : String} {stops : List String} {ops : List RouteOp}

theorem stops?_eq_some {rs : LiveRoutes} :
    rs.stops? ref = some stops ↔ ∃ t, rs.get? ref = some ⟨stops, t⟩ := by
  unfold stops?
  rw [Option.map_eq_some_iff]
  constructor
  · rintro ⟨⟨_, t⟩, hget, rfl⟩
    exact ⟨t, hget⟩
  · rintro ⟨t, hget⟩
    exact ⟨_, hget, rfl⟩

theorem stops?_run : (run ∅ ops).stops? ref = some stops ↔ Stands ref stops ops := by
  simp only [stops?_eq_some, get?_run, exists_and_left]
  exact and_iff_left_of_imp Stands.seen

theorem stops?_update_partial {rs : LiveRoutes} {u : JourneyUpdate} {now : Timestamp}
    (hpartial : u.isComplete = false) : (rs.update u now).stops? ref = rs.stops? ref := by
  unfold stops?
  rw [get?_update, hpartial]
  split
  · rw [if_neg Bool.false_ne_true, Option.map_map]
    rfl
  · rfl

theorem stops?_update_complete {rs : LiveRoutes} {u : JourneyUpdate} {now : Timestamp}
    (hcomplete : u.isComplete = true) : (rs.update u now).stops? ref =
      if ref ∈ u.journeyRefs ∧ u.stopSequence ≠ [] then some u.stopSequence else rs.stops? ref := by
  unfold stops?
  rw [get?_update, if_pos hcomplete]
  by_cases hnamed : ref ∈ u.journeyRefs <;> by_cases hempty : u.stopSequence = [] <;>
    simp [hnamed, hempty]

/-- What an eviction forgets, and how many. -/
theorem evict_eq (rs : LiveRoutes) (cutoff : Timestamp) :
    let forgotten := rs.filter fun _ r => !decide (cutoff ≤ r.seen)
    (rs.evict cutoff).1 = forgotten.keys.length ∧
      ∀ ref, (rs.evict cutoff).2.stops? ref =
        if ref ∈ forgotten.keys then none else rs.stops? ref := by
  intro forgotten
  refine ⟨?_, fun ref => ?_⟩
  · have hsplit := rs.entries.length_eq_length_filter_add fun e => decide (cutoff ≤ e.2.seen)
    have hkeys : forgotten.keys.length = forgotten.entries.length := List.length_map _
    rw [hkeys]
    exact Nat.sub_eq_of_eq_add' hsplit
  · have hmem : ref ∈ forgotten.keys ↔ ∃ r, rs.get? ref = some r ∧ ¬ cutoff ≤ r.seen := by
      rw [Table.mem_keys]
      simp only [forgotten, Table.get?_filter_eq_some, Bool.not_eq_true', decide_eq_false_iff_not]
    unfold stops? evict
    rw [Table.get?_filter]
    cases hget : rs.get? ref with
    | none => simp
    | some r =>
      rw [hget] at hmem
      by_cases hle : cutoff ≤ r.seen <;> simp [hmem, hle]

/-- **Live routes.** After every run a journey has the row of stops that stands: the last one put in or
listed by a complete update, unless the journey was removed since, or an eviction since had a cutoff
later than it had last been seen by then. An update that is not complete changes no row, none sets a row
without stops, and a complete one with stops sets the row of every reference by which it names its
journey. An eviction forgets exactly the journeys that are known and were last seen before its cutoff,
and says how many. -/
theorem rows_standing (ops : List RouteOp) :
    let rs := run ∅ ops
    (∀ ref stops, rs.stops? ref = some stops ↔ Stands ref stops ops) ∧
    (∀ u now, u.complete ≠ some true → ∀ ref, (rs.update u now).stops? ref = rs.stops? ref) ∧
    (∀ u now ref, (rs.update u now).stops? ref = some [] → rs.stops? ref = some []) ∧
    (∀ u now, u.complete = some true → u.stopSequence ≠ [] → ∀ ref ∈ u.journeyRefs,
      (rs.update u now).stops? ref = some u.stopSequence) ∧
    ∀ cutoff, ∃ forgotten : List String, forgotten.Nodup ∧
      (rs.evict cutoff).1 = forgotten.length ∧
      ∀ ref, (ref ∈ forgotten ↔ (∃ stops, rs.stops? ref = some stops) ∧
          ∃ t, lastSeen ref ops = some t ∧ t < cutoff) ∧
        (rs.evict cutoff).2.stops? ref = if ref ∈ forgotten then none else rs.stops? ref := by
  intro rs
  refine ⟨fun ref stops => stops?_run, fun u now hpartial ref => ?_, fun u now ref hset => ?_,
    fun u now hcomplete hstops ref href => ?_, fun cutoff => ?_⟩
  · exact stops?_update_partial (beq_eq_false_iff_ne.mpr hpartial)
  · cases hcomplete : u.isComplete with
    | false => rwa [stops?_update_partial hcomplete] at hset
    | true =>
      rw [stops?_update_complete hcomplete] at hset
      split at hset
      · rename_i hgiven
        exact absurd (Option.some.inj hset) hgiven.2
      · exact hset
  · rw [stops?_update_complete (beq_iff_eq.mpr hcomplete), if_pos ⟨href, hstops⟩]
  · obtain ⟨hcount, hleft⟩ := evict_eq rs cutoff
    refine ⟨_, Table.keys_nodup _, hcount, fun ref => ⟨?_, hleft ref⟩⟩
    simp only [Table.mem_keys, Table.get?_filter_eq_some, Bool.not_eq_true', decide_eq_false_iff_not,
      Timestamp.not_le]
    constructor
    · rintro ⟨⟨stops, t⟩, hget, hlt⟩
      exact ⟨⟨stops, stops?_eq_some.mpr ⟨t, hget⟩⟩, t, (get?_run.mp hget).2, hlt⟩
    · rintro ⟨⟨stops, hstops⟩, t, hlast, hlt⟩
      exact ⟨⟨stops, t⟩, get?_run.mpr ⟨stops?_run.mp hstops, hlast⟩, hlt⟩

/-- A journey with a vehicle. Both have a row by an update that lists all stops; only the journey is
named by the one that follows. -/
def seenAgain : List RouteOp :=
  let start : Timestamp := .epoch
  let later : Timestamp := ⟨120, 0, by decide⟩
  let u := ((JourneyUpdate.dated "L" "j").withEstimated (.atStop "A")).withEstimated (.atStop "B")
  [.put "j" ["A", "B", "C"] start, .update { u with vehicleRef := some "v", complete := some true } start,
    .update { u with complete := none } later]

def betweenUpdates : Timestamp := ⟨75, 0, by decide⟩

theorem rows_standing_seenAgain :
    Stands "j" ["A", "B"] seenAgain ∧ Stands "v" ["A", "B"] seenAgain ∧
    ¬ Stands "v" ["A", "B"] (seenAgain ++ [.evict betweenUpdates]) ∧
    Stands "j" ["A", "B"] (seenAgain ++ [.evict betweenUpdates]) ∧
    ∃ forgotten : List String, ((run ∅ seenAgain).evict betweenUpdates).1 = forgotten.length ∧
      "v" ∈ forgotten ∧ "j" ∉ forgotten := by
  have hboth : (run ∅ seenAgain).stops? "j" = some ["A", "B"] ∧
      (run ∅ seenAgain).stops? "v" = some ["A", "B"] := by decide
  have hone : (run ∅ (seenAgain ++ [.evict betweenUpdates])).stops? "j" = some ["A", "B"] ∧
      (run ∅ (seenAgain ++ [.evict betweenUpdates])).stops? "v" = none := by decide
  have hlast : lastSeen "v" seenAgain = some .epoch ∧
      lastSeen "j" seenAgain = some ⟨120, 0, by decide⟩ := by decide
  obtain ⟨hstands, -, -, -, hevict⟩ := rows_standing seenAgain
  obtain ⟨hstands', -⟩ := rows_standing (seenAgain ++ [.evict betweenUpdates])
  obtain ⟨forgotten, -, hcount, hforgotten⟩ := hevict betweenUpdates
  refine ⟨(hstands _ _).mp hboth.1, (hstands _ _).mp hboth.2, fun h => ?_, (hstands' _ _).mp hone.1,
    forgotten, hcount, (hforgotten "v").1.mpr ⟨⟨_, hboth.2⟩, _, hlast.1, by decide⟩, fun h => ?_⟩
  · rw [← hstands', hone.2] at h
    cases h
  · obtain ⟨-, t, ht, hlt⟩ := (hforgotten "j").1.mp h
    cases hlast.2.symm.trans ht
    exact absurd hlt (by decide)

end LiveRoutes
end TransitPush
