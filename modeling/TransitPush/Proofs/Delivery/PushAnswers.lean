import Mathlib.Data.List.Infix
import TransitPush.Proofs.Delivery.CourierRun
/-!
# Answers to pushes over many pushes

Every answer to a push of a subscription is settled at once: 200 clears the failed pushes, 205 removes
the subscription, anything else is one failure more, and one more than is tolerated removes the
subscription too. Over a run of answers this comes to a statement about the answers alone.

* `Answer.Ended`: some answer so far was 205, or ended a run of more failures than are tolerated.
* `Registry.Tracks`: until then the subscription is stored, with as many failed pushes as the run of
  failures is long; from then on it is gone. Each answer keeps this (`Registry.Tracks.settled`), and
  so does every operation about others (`Registry.Tracks.spared`).
* `Courier.answers_settled`: this holds over every run.
-/
namespace TransitPush

/-! ## Answers alone -/

namespace Answer

/-- An answer that counts against a subscription: a status other than 200 and 205, or no status. -/
def fails : Answer → Bool
  | .ok status => status ≠ 200 ∧ status ≠ 205
  | .error _ => true

/-- How many failures there are at the end of a list of answers without another answer between. -/
def trailingFailures (answers : List Answer) : Nat :=
  (answers.reverse.takeWhile fails).length

/-- The last answer is 205, or with it more failures in a row have come than are tolerated. -/
def Ends (limit : UInt32) (answers : List Answer) : Prop :=
  answers.getLast? = some (.ok 205) ∨ limit.toNat < trailingFailures answers

/-- One of the answers was such a last one. -/
def Ended (limit : UInt32) (answers : List Answer) : Prop :=
  ∃ first, first <+: answers ∧ Ends limit first

variable {limit : UInt32} {past : List Answer} {a : Answer}

instance (limit : UInt32) (answers : List Answer) : Decidable (Ends limit answers) :=
  inferInstanceAs (Decidable (_ ∨ _))

instance (limit : UInt32) (answers : List Answer) : Decidable (Ended limit answers) :=
  decidable_of_iff (∃ first ∈ answers.inits, Ends limit first) <|
    exists_congr fun first => and_congr_left' (List.mem_inits first answers)

theorem trailingFailures_append_singleton :
    trailingFailures (past ++ [a]) = if fails a then trailingFailures past + 1 else 0 := by
  unfold trailingFailures
  rw [List.reverse_append, List.reverse_singleton, List.singleton_append, List.takeWhile_cons]
  cases fails a <;> rfl

/-- An answer ends what has not ended before if it is 205, or a failure after as many as are
tolerated. -/
theorem ended_append_singleton :
    Ended limit (past ++ [a]) ↔
      Ended limit past ∨ a = .ok 205 ∨ fails a = true ∧ limit.toNat ≤ trailingFailures past := by
  have hends : Ends limit (past ++ [a]) ↔
      a = .ok 205 ∨ fails a = true ∧ limit.toNat ≤ trailingFailures past := by
    unfold Ends
    rw [List.getLast?_concat, trailingFailures_append_singleton, Option.some_inj]
    refine or_congr_right ?_
    cases fails a
    · simp
    · rw [if_pos rfl, Nat.lt_add_one_iff, and_iff_right rfl]
  rw [← hends]
  unfold Ended
  simp only [List.prefix_concat_iff, or_and_right, exists_or, exists_eq_left]
  exact or_comm

/-- Nothing has come to an end before the first answer. -/
theorem not_ended_nil : ¬ Ended limit [] := by
  rintro ⟨first, hprefix, hends⟩
  obtain rfl := List.prefix_nil.mp hprefix
  rcases hends with hlast | hmany
  · cases hlast
  · exact Nat.not_lt_zero _ hmany

theorem trailingFailures_le (h : ¬ Ended limit past) : trailingFailures past ≤ limit.toNat :=
  Nat.le_of_not_lt fun hmany => h ⟨past, List.prefix_rfl, .inr hmany⟩

end Answer

/-- An answer is settled as a success, as a wish to be sent nothing more, or as a failure. -/
theorem Outcome.ofAnswer_cases (a : Answer) :
    (a = .ok 200 ∧ ofAnswer a = .delivered) ∨ (a = .ok 205 ∧ ofAnswer a = .reset) ∨
      (Answer.fails a = true ∧ ∃ status, ofAnswer a = .failed status) := by
  cases a with
  | error e => exact .inr (.inr ⟨rfl, none, rfl⟩)
  | ok status =>
    have houtcome : ofAnswer (.ok status) =
      if status = 200 then delivered else if status = 205 then reset else failed (some status) := rfl
    by_cases hok : status = 200
    · rw [if_pos hok] at houtcome
      exact .inl ⟨congrArg _ hok, houtcome⟩
    · rw [if_neg hok] at houtcome
      by_cases hreset : status = 205
      · rw [if_pos hreset] at houtcome
        exact .inr (.inl ⟨congrArg _ hreset, houtcome⟩)
      · rw [if_neg hreset] at houtcome
        exact .inr (.inr ⟨decide_eq_true ⟨hok, hreset⟩, some status, houtcome⟩)

namespace Registry

open Answer

/-! ## One answer -/

/-- The registry knows of a subscription what the answers to its pushes say: while they have not
ended it, it is stored with its failed pushes, and then it is gone with its entry in the schedule. -/
structure Tracks (limit : UInt32) (s : Subscription) (past : List Answer)
    (r : Registry MemoryStore) : Prop where
  consistent : r.store.Consistent
  failureLimit : r.failureLimit = limit
  stored : ¬ Ended limit past → ∃ failures : UInt32, failures.toNat = trailingFailures past ∧
    r.store.subscriptions.get? s.id = some { s with failedPushes := failures }
  gone : Ended limit past →
    r.store.subscriptions.get? s.id = none ∧ r.schedule.get? s.id = none

namespace Tracks

variable {limit failures : UInt32} {s : Subscription} {past : List Answer}
  {r r' : Registry MemoryStore}

theorem of_changed (hc : r.store.Consistent) (hlimit : r.failureLimit = limit)
    {f : Subscription → Subscription} {before : Subscription}
    (hget : r.store.subscriptions.get? s.id = some before)
    (hf : f before = { s with failedPushes := failures })
    (hopen : ¬ Ended limit past) (hn : failures.toNat = trailingFailures past) :
    Tracks limit s past (r.changed s.id f) where
  consistent := hc.apply (.modify s.id f) trivial
  failureLimit := hlimit
  stored _ := by
    refine ⟨failures, hn, (hc.get?_modify hget).trans ?_⟩
    rw [hf, hc.own s.id before hget]
  gone hended := absurd hended hopen

theorem of_without (hc : r.store.Consistent) (hlimit : r.failureLimit = limit)
    (hended : Ended limit past) : Tracks limit s past (r.without s.id) where
  consistent := hc.remove s.id
  failureLimit := hlimit
  stored hopen := absurd hended hopen
  gone _ := ⟨r.store.get?_remove s.id, (Table.get?_erase _ s.id s.id).trans (if_pos rfl)⟩

/-- An operation about others. -/
theorem spared (h : Tracks limit s past r) (hspares : r.Spares s.id r') :
    Tracks limit s past r' where
  consistent := hspares.consistent
  failureLimit := hspares.failureLimit.trans h.failureLimit
  stored hopen := by
    rw [hspares.get?]
    exact h.stored hopen
  gone hended := by
    obtain ⟨hget, hnone⟩ := h.gone hended
    exact ⟨hspares.get?.trans hget, hspares.unscheduled hget hnone⟩

/-- The answer to a push to the subscription. -/
theorem settled (h : Tracks limit s past r) (hlimit : limit.toNat + 1 < UInt32.size) (a : Answer) :
    Tracks limit s (past ++ [a]) (r.settled s.id (.ofAnswer a)) := by
  by_cases hended : Ended limit past
  · obtain ⟨hget, hnone⟩ := h.gone hended
    rw [settled_gone hget hnone]
    have hstill := ended_append_singleton (a := a).mpr (.inl hended)
    exact ⟨h.consistent, h.failureLimit, fun hopen => absurd hstill hopen, fun _ => h.gone hended⟩
  · obtain ⟨failures, hn, hget⟩ := h.stored hended
    have hle := trailingFailures_le hended
    rcases Outcome.ofAnswer_cases a with ⟨rfl, ho⟩ | ⟨rfl, ho⟩ | ⟨hfails, status, ho⟩
    · have hopen : ¬ Ended limit (past ++ [.ok 200]) := by
        rw [ended_append_singleton]
        rintro (h | h | h)
        · exact hended h
        · cases h
        · cases h.1
      rw [ho, settled_delivered h.consistent]
      refine of_changed h.consistent h.failureLimit hget rfl hopen ?_
      rw [trailingFailures_append_singleton]
      rfl
    · rw [ho, settled_reset]
      exact of_without h.consistent h.failureLimit (ended_append_singleton.mpr (.inr (.inl rfl)))
    · -- While the subscription is stored its failures are at most the limit, so the counter is never
      -- at its greatest value, where one more failure would not be counted.
      have hfit : failures.toNat + 1 < UInt32.size := by omega
      have hcount : Subscription.countFailure { s with failedPushes := failures } =
          { s with failedPushes := failures + 1 } := Subscription.countFailure_eq hfit
      have hnext : (failures + 1).toNat = failures.toNat + 1 := by
        rw [UInt32.toNat_add]
        exact Nat.mod_eq_of_lt hfit
      rw [ho, settled_failed hget, hcount, h.failureLimit]
      dsimp only
      have hc := h.consistent.apply (.modify s.id Subscription.countFailure) trivial
      split
      · rename_i hmore
        have hmore := UInt32.le_iff_toNat_le.mp hmore
        refine of_changed h.consistent h.failureLimit hget hcount ?_ ?_
        · rw [ended_append_singleton]
          rintro (h | rfl | ⟨-, h⟩)
          · exact hended h
          · cases hfails
          · omega
        · rw [trailingFailures_append_singleton, if_pos hfails, hnext, hn]
      · rename_i hmore
        have hmore := mt UInt32.le_iff_toNat_le.mpr hmore
        refine of_without hc h.failureLimit (ended_append_singleton.mpr (.inr (.inr ⟨hfails, ?_⟩)))
        omega

end Tracks
end Registry

/-! ## Runs -/

namespace Courier

open Answer

variable {τ : Type} [Transport τ]

theorem tracks_run {limit : UInt32} {s : Subscription} {past : List Answer}
    {c : Courier MemoryStore τ} {ops : List CourierOp}
    (h : Registry.Tracks limit s past c.registry) (hlimit : limit.toNat + 1 < UInt32.size)
    (hspares : c.RunSpares s.id ops) :
    Registry.Tracks limit s (past ++ c.answersTo s.id ops) (c.run ops).registry := by
  induction ops generalizing c past with
  | nil =>
    rw [answersTo, List.append_nil]
    exact h
  | cons op ops ih =>
    obtain ⟨hop, hops⟩ := hspares
    rw [answersTo, run]
    cases hanswer : c.answerTo s.id op with
    | none => exact ih (h.spared (spares_step h.consistent hop hanswer)) hops
    | some a =>
      have hsettled := h.settled hlimit a
      rw [← settled_step hanswer] at hsettled
      rw [Option.toList_some, ← List.append_assoc]
      exact ih hsettled hops

/-- **Answers to pushes.** Over every run of deliveries, of writes and removals of other
subscriptions, and of sweeps, a stored subscription without failed pushes is removed with the first
answer to one of its pushes that is 205 or ends a run of more failures than are tolerated. Until then
it is stored with the length of the run of failures at the end as its failed pushes, and otherwise
unchanged. From then on it is neither in the store nor in an index nor in the schedule, and no answer
to another of its pushes changes anything in the registry. -/
theorem answers_settled (c : Courier MemoryStore τ) (prior : List StoreOp)
    (hprior : StoreOp.Fresh MemoryStore.empty prior)
    (hstore : c.registry.store = StoreOp.run MemoryStore.empty prior)
    (hlimit : c.registry.failureLimit.toNat + 1 < UInt32.size) (s : Subscription)
    (hstored : SubscriptionStore.get? c.registry.store s.id = some s) (hnew : s.failedPushes = 0)
    (ops : List CourierOp) (hspares : c.RunSpares s.id ops) :
    let limit := c.registry.failureLimit
    let past := c.answersTo s.id ops
    let last := (c.run ops).registry
    (¬ Ended limit past →
      ∃ failures : UInt32, failures.toNat = trailingFailures past ∧ failures ≤ limit ∧
        SubscriptionStore.get? last.store s.id = some { s with failedPushes := failures }) ∧
    (Ended limit past →
      SubscriptionStore.get? last.store s.id = none ∧ last.schedule.get? s.id = none ∧
      (∀ ix ∈ [last.store.byStop, last.store.byLine, last.store.byCodespace], ∀ key,
        ¬ s.id ∈ ix.ids key) ∧
      ∀ (o : Outgoing) now, o.subscription.id = s.id →
        ((c.run ops).deliver now (.push o)).registry = last) := by
  intro limit past last
  have hstart : Registry.Tracks limit s [] c.registry := by
    refine ⟨?_, rfl, fun _ => ⟨0, rfl, ?_⟩, fun hended => absurd hended not_ended_nil⟩
    · rw [hstore]
      exact MemoryStore.Consistent.empty.run prior hprior
    · rw [← hnew]
      exact hstored
  have hlast : Registry.Tracks limit s past last := tracks_run hstart hlimit hspares
  refine ⟨fun hopen => ?_, fun hended => ?_⟩
  · obtain ⟨failures, hn, hget⟩ := hlast.stored hopen
    refine ⟨failures, hn, UInt32.le_iff_toNat_le.mpr ?_, hget⟩
    rw [hn]
    exact trailingFailures_le hopen
  · obtain ⟨hget, hnone⟩ := hlast.gone hended
    refine ⟨hget, hnone, hlast.consistent.unindexed hget, fun o now hid => ?_⟩
    rw [registry_deliver_push, hid]
    exact Registry.settled_gone hget hnone _

/-- Two subscribers. The first gets heartbeats, the second ends at once. -/
def endingSubscribers : List StoreOp :=
  let pushing := Subscription.pushing "" "http://a"
  [.add "a" { pushing.withLine "1" with heartbeat := some (.ofSeconds 1) },
    .add "b" { pushing.withCodespace "NSB" with terminatesAt := some .epoch }]

/-- A courier that tolerates one failed push and gets a success between two of them, and then two
failures in a row. -/
def forgiving : Courier MemoryStore PlayedTransport where
  registry := ⟨StoreOp.run .empty endingSubscribers, (∅ : TimestampMap).insert "a" .epoch,
    ⟨toString, 2⟩, 1⟩
  transport := PlayedTransport.empty.withAnswers "http://a/sx"
    [.ok 500, .ok 200, .error .timeout, .ok 204, .ok 200]
  counters := ∅
  waiting := []

def toFirst : Outgoing :=
  ⟨{ Subscription.pushing "" "http://a" with id := "a" }, .situation (.numbered "1" 1)⟩

/-- Three pushes to the first subscriber. Between them the second is swept away, another subscribes,
and the indexes are made anew. -/
def pushesApart : List CourierOp :=
  let later : Timestamp := ⟨5, 0, by decide⟩
  [.deliver .epoch (.push toFirst), .sweep (.ofInterval Planner.defaultCheckInterval) later,
    .deliver later (.push toFirst),
    .write (.add "c" ((Subscription.pushing "" "http://c").withLine "1")), .write .reload,
    .remove "b", .deliver later (.push toFirst)]

theorem answers_settled_pushesApart :
    let s : Subscription := { (Subscription.pushing "" "http://a").withLine "1" with
      id := "a", heartbeat := some (.ofSeconds 1) }
    let late := pushesApart ++ [.deliver .epoch (.push toFirst)]
    StoreOp.Fresh MemoryStore.empty endingSubscribers ∧
    forgiving.registry.failureLimit.toNat + 1 < UInt32.size ∧
    SubscriptionStore.get? forgiving.registry.store "a" = some s ∧
    forgiving.RunSpares "a" late ∧
    forgiving.answersTo "a" pushesApart = [.ok 500, .ok 200, .error .timeout] ∧
    (forgiving.run pushesApart).registry.store.subscriptions.keys = ["a", "c"] ∧
    SubscriptionStore.get? (forgiving.run pushesApart).registry.store "a" =
      some { s with failedPushes := 1 } ∧
    SubscriptionStore.get? (forgiving.run late).registry.store "a" = none ∧
    ((forgiving.run late).deliver .epoch (.push toFirst)).registry =
      (forgiving.run late).registry := by
  intro s late
  have hfresh : StoreOp.Fresh MemoryStore.empty endingSubscribers := by decide
  have hlimit : forgiving.registry.failureLimit.toNat + 1 < UInt32.size := by decide
  have hstored : SubscriptionStore.get? forgiving.registry.store s.id = some s := by decide
  have hspares : forgiving.RunSpares s.id pushesApart := by decide
  have hspares' : forgiving.RunSpares s.id late := by decide
  have hanswers : forgiving.answersTo s.id pushesApart = [.ok 500, .ok 200, .error .timeout] := by
    decide
  have hanswers' : forgiving.answersTo s.id late = [.ok 500, .ok 200, .error .timeout, .ok 204] := by
    decide
  obtain ⟨hopen, -⟩ := answers_settled forgiving endingSubscribers hfresh rfl hlimit s hstored rfl
    pushesApart hspares
  obtain ⟨-, hended⟩ := answers_settled forgiving endingSubscribers hfresh rfl hlimit s hstored rfl
    late hspares'
  rw [hanswers] at hopen
  rw [hanswers'] at hended
  obtain ⟨failures, hn, -, hget⟩ := hopen (by decide)
  obtain rfl : failures = 1 := UInt32.toNat_inj.mp hn
  obtain ⟨hgone, -, -, hlater⟩ := hended (by decide)
  exact ⟨hfresh, hlimit, hstored, hspares', hanswers, by decide, hget, hgone,
    hlater toFirst .epoch rfl⟩

end Courier
end TransitPush
