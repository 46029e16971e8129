import TransitPush.Proofs.Routing.KnownRoutes
import TransitPush.Proofs.Server.Requests
/-!
# Events of producers that are not accepted

An event whose producer is not accepted leads to no push. A journey update still shows where its
journey goes, whoever sends it, and events to come are matched with that. Two runs are compared, with
such events and without them.

* `LiveRoutes.SameStops`: live routes that differ in the times at which they were seen.
* `Hub.Alike.step`, `Hub.Alike.answer`: hubs that are alike stay alike and give the same answers, as
  long as the difference in their live routes is not noticed (`LiveRoutes.Unnoticed`).
* `Hub.alike_run`: runs in which operations are replaced by others that do the same.
* `Hub.unaccepted_unnoticed`: what is left of events whose producers are not accepted.
-/
namespace TransitPush

/-! ## Live routes that look the same -/

/-- The update lists all stops of a journey that it names, so its stops are known from then on. -/
def JourneyUpdate.setsRoute (u : JourneyUpdate) : Bool :=
  u.isComplete && !u.stopSequence.isEmpty && !u.journeyRefs.isEmpty

namespace LiveRoutes

/-- The same journeys are known, with the same stops. -/
def SameStops (rs rs' : LiveRoutes) : Prop :=
  ∀ ref, rs.stops? ref = rs'.stops? ref

variable {rs rs' : LiveRoutes} {u : JourneyUpdate} {now : Timestamp}

/-- The stops of a journey after an update. -/
theorem stops?_update {ref : String} : (rs.update u now).stops? ref =
    if u.setsRoute ∧ ref ∈ u.journeyRefs then some u.stopSequence else rs.stops? ref := by
  unfold JourneyUpdate.setsRoute
  cases hcomplete : u.isComplete with
  | false => simpa using stops?_update_partial hcomplete
  | true =>
    rw [stops?_update_complete hcomplete]
    refine if_congr ?_ rfl rfl
    cases u.journeyRefs <;> simp [and_comm]

/-- An update that sets no route leaves all stops as they are. -/
theorem SameStops.update_left (h : rs.SameStops rs') (hset : u.setsRoute = false) :
    (rs.update u now).SameStops rs' := fun ref => by
  rw [stops?_update, hset]
  exact h ref

/-- A difference in live routes that events do not notice, and that no update turns into one that they
do. -/
structure Unnoticed (R : LiveRoutes → LiveRoutes → Prop) : Prop where
  stops : ∀ rs rs', R rs rs' → rs.SameStops rs'
  update : ∀ rs rs' u now, R rs rs' → R (rs.update u now) (rs'.update u now)

theorem Unnoticed.eq : Unnoticed Eq where
  stops _ _ h _ := by rw [h]
  update _ _ _ _ h := by rw [h]

theorem Unnoticed.sameStops : Unnoticed SameStops where
  stops _ _ h := h
  update rs rs' u now h ref := by rw [stops?_update, stops?_update, h ref]

end LiveRoutes

/-- Which subscriptions an event concerns does not depend on when routes were seen. -/
theorem Matcher.select_congr {σ : Type} [SubscriptionStore σ] {m : Matcher σ} {routes : LiveRoutes}
    (h : m.routes.SameStops routes) (e : Event) : { m with routes }.select e = m.select e := by
  have hstops : routes.stops? = m.routes.stops? := funext fun ref => (h ref).symm
  have hlive : { m with routes }.liveRoute? = m.liveRoute? := by
    unfold liveRoute?
    dsimp only
    rw [hstops]
  cases e with
  | situation s =>
    have hviews : { m with routes }.views = m.views := by
      unfold views rows
      rw [hlive]
    have hconcerned : { m with routes }.concerned = m.concerned := by
      unfold concerned
      rw [hviews]
    show { m with routes }.selectSituation s = m.selectSituation s
    unfold selectSituation
    rw [hconcerned]
    rfl
  | journey u =>
    have hview : { m with routes }.viewOf u = m.viewOf u := by
      unfold viewOf
      rw [hlive]
    show { m with routes }.selectJourney u = m.selectJourney u
    unfold selectJourney
    rw [hview]

/-! ## Couriers that are alike -/

namespace Courier.Alike

section
variable {σ τ : Type} {c c' : Courier σ τ}

theorem registry (h : c.Alike c') : c'.registry = c.registry := by
  obtain ⟨counters, rfl⟩ := h
  rfl

theorem transport (h : c.Alike c') : c'.transport = c.transport := by
  obtain ⟨counters, rfl⟩ := h
  rfl

theorem waiting (h : c.Alike c') : c'.waiting = c.waiting := by
  obtain ⟨counters, rfl⟩ := h
  rfl

theorem of_eq (hregistry : c'.registry = c.registry) (htransport : c'.transport = c.transport)
    (hwaiting : c'.waiting = c.waiting) : c.Alike c' := by
  obtain ⟨registry, transport, counters, waiting⟩ := c'
  subst hregistry htransport hwaiting
  exact ⟨counters, rfl⟩

/-- What is counted makes no difference. -/
theorem count (h : c.Alike c') (k k' : Counter) : (c.count k).Alike (c'.count k') :=
  .of_eq h.registry h.transport h.waiting

end

variable {τ : Type} {c c' : Courier MemoryStore τ}

theorem enqueueAll (h : c.Alike c') (ps : List Parcel) : (c.enqueueAll ps).Alike (c'.enqueueAll ps) := by
  obtain ⟨counters, rfl⟩ := h
  exact ⟨counters, rfl⟩

theorem settle (h : c.Alike c') (id : SubscriptionId) (o : Outcome) :
    (c.settle id o).Alike (c'.settle id o) := by
  refine .of_eq ?_ ?_ ?_
  · rw [registry_settle, registry_settle, h.registry]
  · rw [(waiting_settle id o).2, (waiting_settle id o).2, h.transport]
  · rw [(waiting_settle id o).1, (waiting_settle id o).1, h.waiting]

theorem terminateAll (h : c.Alike c') (now : Timestamp) (ss : List Subscription) :
    (ss.foldl (fun c s => c.terminate now s) c).Alike
      (ss.foldl (fun c s => c.terminate now s) c') := by
  induction ss generalizing c c' with
  | nil => exact h
  | cons s ss ih =>
    obtain ⟨counters, rfl⟩ := h
    exact ih ⟨counters, rfl⟩

/-- A sweep finds the same. -/
theorem sweep (h : c.Alike c') (planner : Planner) (now : Timestamp) :
    (c'.sweep planner now).1 = (c.sweep planner now).1 ∧
    (c'.sweep planner now).2.1 = (c.sweep planner now).2.1 ∧
    (c.sweep planner now).2.2.Alike (c'.sweep planner now).2.2 := by
  obtain ⟨counters, rfl⟩ := h
  refine ⟨rfl, rfl, ?_⟩
  exact .enqueueAll (.terminateAll ⟨counters, rfl⟩ now _) _

theorem manage (h : c.Alike c') (op : RegistryOp) : (c.manage op).Alike (c'.manage op) := by
  cases op with
  | sweep planner now => exact (h.sweep planner now).2.2
  | put s =>
    obtain ⟨counters, rfl⟩ := h
    simp only [Courier.manage]
    cases c.registry.put s <;> exact ⟨counters, rfl⟩
  | subscribe s =>
    obtain ⟨counters, rfl⟩ := h
    simp only [Courier.manage]
    cases c.registry.subscribe s <;> exact ⟨counters, rfl⟩
  | recordSuccess id =>
    obtain ⟨counters, rfl⟩ := h
    simp only [Courier.manage]
    cases c.registry.recordSuccess id <;> exact ⟨counters, rfl⟩
  | remove id | reload | recordFailure id =>
    obtain ⟨counters, rfl⟩ := h
    exact ⟨counters, rfl⟩

variable [Transport τ]

/-- A post gets the same answer. -/
theorem send (h : c.Alike c') (post : Except CodecError Post) :
    (c'.send post).1 = (c.send post).1 ∧ (c.send post).2.Alike (c'.send post).2 := by
  obtain ⟨counters, rfl⟩ := h
  cases post with
  | error e => exact ⟨rfl, counters, rfl⟩
  | ok p => exact ⟨rfl, counters, rfl⟩

theorem deliver (h : c.Alike c') (now : Timestamp) (p : Parcel) :
    (c.deliver now p).Alike (c'.deliver now p) := by
  cases p with
  | push o =>
    obtain ⟨hanswer, hsent⟩ := h.send (o.post now)
    unfold Courier.deliver
    dsimp only
    rw [hanswer]
    exact (hsent.count _ _).settle _ _
  | notice kind address envelope =>
    unfold Courier.deliver
    dsimp only
    exact (h.send _).2.count _ _

theorem finish (h : c.Alike c') (now : Timestamp) (i : Nat) :
    (c.finish now i).Alike (c'.finish now i) := by
  obtain ⟨counters, rfl⟩ := h
  unfold Courier.finish
  dsimp only
  cases c.waiting[i]? with
  | none => exact ⟨counters, rfl⟩
  | some p => exact deliver ⟨counters, rfl⟩ now p

theorem finishAll (h : c.Alike c') (now : Timestamp) : (c.finishAll now).Alike (c'.finishAll now) := by
  have hall : ∀ (ps : List Parcel) (c c' : Courier MemoryStore τ), c.Alike c' →
      (ps.foldl (fun c p => c.deliver now p) c).Alike (ps.foldl (fun c p => c.deliver now p) c') := by
    intro ps
    induction ps with
    | nil => exact fun c c' h => h
    | cons p ps ih => exact fun c c' h => ih _ _ (h.deliver now p)
  obtain ⟨counters, rfl⟩ := h
  exact hall c.waiting _ _ ⟨counters, rfl⟩

end Courier.Alike

/-! ## What operations answer -/

/-- What a server answers: a response, how many pushes an event leads to, what a sweep finds, or how
much was forgotten. -/
inductive ServerAnswer where
  | responded (r : Api.Response)
  | published (n : Except RouteError Nat)
  | swept (plan : SweepPlan)
  | forgot (n : Nat)
deriving DecidableEq

namespace ServerOp

/-- The operation forgets live routes, or changes them at will. -/
def writesRoutes : ServerOp → Bool
  | .evictRoutes _ => true
  | .live _ => true
  | _ => false

end ServerOp

namespace Hub

open Api LiveRoutes

variable {τ : Type}

def answer (h : Hub MemoryStore τ) : ServerOp → Option ServerAnswer
  | .request node r now => some (.responded (Api.handle h node now r).1)
  | .publish e now => some (.published ((h.publish e now).map Prod.fst))
  | .sweep now => some (.swept (h.sweep now).1)
  | .evictPushes now => some (.forgot (h.evictPushes now).1)
  | .evictRoutes cutoff => some (.forgot (h.evictRoutes cutoff).1)
  | _ => none

/-! ## Hubs that are alike -/

namespace Alike

variable {R : LiveRoutes → LiveRoutes → Prop} {h h' : Hub MemoryStore τ} {now : Timestamp}

theorem eq_varied (ha : h.Alike R h') : ∃ counters routes, R h.routes routes ∧
    h' = { h with courier := { h.courier with counters }, routes } := by
  obtain ⟨courier', topology', routes', dedup', accepted', planner'⟩ := h'
  obtain ⟨⟨counters, hcourier⟩, htopology, hroutes, hdedup, haccepted, hplanner⟩ := ha
  dsimp only at *
  subst hcourier htopology hdedup haccepted hplanner
  exact ⟨counters, routes', hroutes, rfl⟩

/-- An event leads to the same pushes. -/
theorem told (ha : h.Alike R h') (hR : Unnoticed R) (e : Event) (now : Timestamp) :
    h'.told e now = h.told e now := by
  obtain ⟨counters, routes, hroutes, rfl⟩ := ha.eq_varied
  have hselect := Matcher.select_congr (m := h.matcher) (hR.stops _ _ hroutes) e
  unfold Hub.told
  exact congrArg (fun ss => if e.isAccepted h.accepted then
    h.dedup.pushes now (h.matcher.copyFor e) ss else ([], h.dedup)) hselect

/-- An event is answered in the same way, as far as its pushes go. -/
theorem publish (ha : h.Alike R h') (hR : Unnoticed R) (e : Event) (now : Timestamp) :
    (h'.publish e now).map Prod.fst = (h.publish e now).map Prod.fst := by
  cases hcheck : e.check with
  | error err => rw [publish_malformed hcheck, publish_malformed hcheck]
  | ok => rw [publish_wellFormed hcheck, publish_wellFormed hcheck, ha.told hR]; rfl

theorem receive (ha : h.Alike R h') (hR : Unnoticed R) (e : Event) (now : Timestamp) :
    (h'.receive e now).1 = (h.receive e now).1 := by
  cases hcheck : e.check with
  | error err => rw [receive_malformed hcheck, receive_malformed hcheck]
  | ok => rw [receive_wellFormed hcheck, receive_wellFormed hcheck, ha.told hR]

/-- What is asked for leaves hubs alike. -/
theorem serve (ha : h.Alike R h') (hR : Unnoticed R) (now : Timestamp) (a : Asked) :
    (h.serve now a).Alike R (h'.serve now a) := by
  cases a with
  | nothing => exact ha
  | manage op => exact { ha with courier := ha.courier.manage op }
  | event e =>
    unfold Hub.serve
    dsimp only
    cases hcheck : e.check with
    | error err =>
      rw [receive_malformed hcheck, receive_malformed hcheck]
      exact { ha with courier := (ha.courier.count _ _).count _ _ }
    | ok =>
      rw [receive_wellFormed hcheck, receive_wellFormed hcheck, ha.told hR]
      refine { ha with courier := (ha.courier.count _ _).enqueueAll _, dedup := rfl, routes := ?_ }
      cases e with
      | situation s => exact ha.routes
      | journey u => exact hR.update _ _ u now ha.routes

theorem save (ha : h.Alike R h') (r : Request)
    (save : Registry MemoryStore → Subscription →
      Except RegistryError (Subscription × Registry MemoryStore)) :
    (Api.save h' r (save h'.registry)).1 = (Api.save h r (save h.registry)).1 := by
  have hregistry : h'.registry = h.registry := ha.courier.registry
  unfold Api.save
  rw [hregistry]
  cases r.read Subscription.format with
  | error status => rfl
  | ok s =>
    dsimp only
    cases save h.registry s <;> rfl

theorem delete (ha : h.Alike R h') (id : Option String) :
    (Api.delete h' id).1 = (Api.delete h id).1 := by
  have hregistry : h'.registry = h.registry := ha.courier.registry
  cases id with
  | none => rfl
  | some id =>
    have hremove : h.registry.remove id =
        .ok ((h.registry.store.remove id).1, h.registry.without id) := rfl
    rw [Api.delete, Api.delete, hregistry, hremove]
    cases (h.registry.store.remove id).1 <;> rfl

theorem postSituation (ha : h.Alike R h') (hR : Unnoticed R) (r : Request) (now : Timestamp) :
    (Api.postSituation h' r now).1 = (Api.postSituation h r now).1 := by
  unfold Api.postSituation
  cases r.read Situation.format with
  | error status => rfl
  | ok s => exact congrArg queued (ha.receive hR _ now)

theorem postJourney (ha : h.Alike R h') (hR : Unnoticed R) (r : Request) (now : Timestamp) :
    (Api.postJourney h' r now).1 = (Api.postJourney h r now).1 := by
  cases hread : r.read JourneyUpdate.format with
  | error status =>
    unfold Api.postJourney
    rw [hread]
  | ok u =>
    have hqueued : ∀ h : Hub MemoryStore τ,
        (Api.postJourney h r now).1 = queued (h.receive (.journey u) now).1 := by
      intro h
      unfold Api.postJourney
      rw [hread]
      dsimp only
      generalize h.receive (.journey u) now = received
      obtain ⟨_ | _, _⟩ := received <;> rfl
    rw [hqueued, hqueued, ha.receive hR]

/-- Requests are answered in the same way. -/
theorem perform (ha : h.Alike R h') (hR : Unnoticed R) (node : String) (now : Timestamp) (r : Request)
    (method : String) (route : Api.Route) :
    (Api.perform h' node now r method route).1 = (Api.perform h node now r method route).1 := by
  have hstore : h'.store = h.store := congrArg Registry.store ha.courier.registry
  cases route with
  | health =>
    have hhealth : Api.health h' node = Api.health h node := by
      unfold Api.health
      rw [hstore, ha.courier.waiting]
    dsimp only [Api.perform]
    split
    · exact hhealth
    · rfl
  | subscriptions =>
    dsimp only [Api.perform]
    split
    · unfold Api.list
      rw [hstore]
    · exact ha.save r Registry.put
    · rfl
  | enveloped =>
    dsimp only [Api.perform]
    split
    · exact ha.save r Registry.subscribe
    · rfl
  | subscription id =>
    have hget : Api.get h' id = Api.get h id := by
      cases id with
      | none => rfl
      | some id => rw [Api.get, Api.get, hstore]
    dsimp only [Api.perform]
    split
    · exact hget
    · exact ha.delete id
    · rfl
  | situations =>
    dsimp only [Api.perform]
    split
    · exact ha.postSituation hR r now
    · rfl
  | journeys =>
    dsimp only [Api.perform]
    split
    · exact ha.postJourney hR r now
    · rfl
  | reload =>
    dsimp only [Api.perform]
    split <;> rfl

theorem handle (ha : h.Alike R h') (hR : Unnoticed R) (node : String) (now : Timestamp) (r : Request) :
    (Api.handle h' node now r).1 = (Api.handle h node now r).1 := by
  unfold Api.handle
  cases Route.ofPath? r.path with
  | none => rfl
  | some route =>
    dsimp only
    split
    · exact congrArg (Response.bare ·.status) (ha.perform hR node now r "GET" route)
    · exact ha.perform hR node now r r.method route

/-- Operations leave hubs alike. -/
theorem step [Transport τ] (ha : h.Alike R h') (hR : Unnoticed R) {op : ServerOp}
    (hop : op.writesRoutes = true → R = Eq) : (h.step op).Alike R (h'.step op) := by
  cases op with
  | request node r now =>
    show (Api.handle h node now r).2.Alike R (Api.handle h' node now r).2
    rw [handle_eq_serve, handle_eq_serve]
    exact ha.serve hR now r.asked
  | registry op => exact { ha with courier := ha.courier.manage op }
  | publish e now =>
    unfold Hub.step
    dsimp only
    cases hcheck : e.check with
    | error err =>
      rw [publish_malformed hcheck, publish_malformed hcheck]
      exact ha
    | ok =>
      rw [publish_wellFormed hcheck, publish_wellFormed hcheck, ha.told hR]
      exact { ha with courier := ha.courier.enqueueAll _, dedup := rfl }
  | finish i now => exact { ha with courier := ha.courier.finish now i }
  | drain now => exact { ha with courier := ha.courier.finishAll now }
  | sweep now =>
    obtain ⟨-, hplanner, hcourier⟩ := ha.courier.sweep h.planner now
    have hsweep : (h'.step (.sweep now)) =
        { h' with
          planner := (h'.courier.sweep h.planner now).2.1
          courier := (h'.courier.sweep h.planner now).2.2 } := by
      rw [← ha.planner]
      rfl
    rw [hsweep]
    exact { ha with courier := hcourier, planner := hplanner }
  | evictPushes now =>
    refine { ha with dedup := ?_ }
    exact congrArg (fun c => (DedupCache.evictExpired c now).2) ha.dedup
  | evictRoutes cutoff =>
    have hroutes := ha.routes
    cases hop rfl
    exact { ha with routes := congrArg (fun rs => (LiveRoutes.evict rs cutoff).2) hroutes }
  | live f =>
    have hroutes := ha.routes
    cases hop rfl
    exact { ha with routes := congrArg f hroutes }

/-- Operations are answered in the same way. -/
theorem answer (ha : h.Alike R h') (hR : Unnoticed R) {op : ServerOp}
    (hop : op.writesRoutes = true → R = Eq) : h'.answer op = h.answer op := by
  cases op with
  | request node r now =>
    exact congrArg (fun r => some (ServerAnswer.responded r)) (ha.handle hR node now r)
  | publish e now =>
    exact congrArg (fun n => some (ServerAnswer.published n)) (ha.publish hR e now)
  | sweep now =>
    show some (ServerAnswer.swept (h'.courier.sweep h'.planner now).1) = _
    rw [ha.planner, (ha.courier.sweep h.planner now).1]
    rfl
  | evictPushes now =>
    exact congrArg (fun c => some (ServerAnswer.forgot (DedupCache.evictExpired c now).1)) ha.dedup
  | evictRoutes cutoff =>
    have hroutes := ha.routes
    cases hop rfl
    exact congrArg (fun rs => some (ServerAnswer.forgot (LiveRoutes.evict rs cutoff).1)) hroutes.symm
  | _ => rfl

end Alike
end Hub

/-! ## Events that are not accepted -/

/-- The event is well-formed, but its producer is missing or none of those accepted. -/
def Event.isUnaccepted (accepted : List String) (e : Event) : Bool :=
  e.check.isOk && !e.isAccepted accepted

def Api.Asked.event? : Asked → Option Event
  | .event e => some e
  | _ => none

theorem Api.Asked.event?_eq_some {a : Asked} {e : Event} : a.event? = some e ↔ a = .event e := by
  cases a <;> simp [event?]

def Event.journey? : Event → Option JourneyUpdate
  | .situation _ => none
  | .journey u => some u

namespace ServerOp

def event? : ServerOp → Option Event
  | .request _ r _ => r.asked.event?
  | .publish e _ => some e
  | _ => none

def isUnaccepted (accepted : List String) (op : ServerOp) : Bool :=
  op.event?.any fun e => e.isUnaccepted accepted

/-- The journey update that is posted, and when. -/
def journey? : ServerOp → Option (JourneyUpdate × Timestamp)
  | .request _ r now => (r.asked.event?.bind Event.journey?).map fun u => (u, now)
  | _ => none

/-- The live routes once the journey update that is posted has come in, whoever it is from. -/
def refresh (op : ServerOp) (rs : LiveRoutes) : LiveRoutes :=
  op.journey?.elim rs fun (u, now) => rs.update u now

/-- A journey update is posted that sets a live route. -/
def setsRoute (op : ServerOp) : Bool :=
  op.journey?.any fun (u, _) => u.setsRoute

/-- What is left of an operation when its event is not accepted: what a journey update that is posted
does to the live routes. -/
def refreshing (accepted : List String) (op : ServerOp) : Option ServerOp :=
  if op.isUnaccepted accepted then op.journey?.map fun _ => .live op.refresh else some op

theorem refresh_request {node : String} {r : Api.Request} {now : Timestamp} {e : Event}
    (hasked : r.asked = .event e) (rs : LiveRoutes) :
    (request node r now).refresh rs = e.refresh now rs := by
  unfold refresh journey?
  dsimp only
  rw [Api.Asked.event?_eq_some.mpr hasked]
  cases e <;> rfl

theorem sameStops_refresh {op : ServerOp} {rs rs' : LiveRoutes} (h : rs.SameStops rs')
    (hset : op.setsRoute = false) : (op.refresh rs).SameStops rs' := by
  unfold refresh
  unfold setsRoute at hset
  cases hjourney : op.journey? with
  | none => exact h
  | some update =>
    rw [hjourney] at hset
    exact h.update_left hset

end ServerOp

namespace Hub

open Api LiveRoutes

variable {τ : Type} {R : LiveRoutes → LiveRoutes → Prop} {h h' : Hub MemoryStore τ}
  {accepted : List String}

theorem told_unaccepted {e : Event} (hun : e.isUnaccepted h.accepted = true) (now : Timestamp) :
    e.check = .ok () ∧ h.told e now = ([], h.dedup) := by
  unfold Event.isUnaccepted at hun
  obtain ⟨hok, hnot⟩ := Bool.and_eq_true_iff.mp hun
  constructor
  · cases hcheck : e.check with
    | error err =>
      rw [hcheck] at hok
      cases hok
    | ok => rfl
  · unfold told
    rw [if_neg (by simpa using hnot)]

variable [Transport τ]

/-- All that an event which is not accepted does, is to bring the live routes up to date. -/
theorem Alike.step_unaccepted (ha : h.Alike R h') {op : ServerOp} {routes : LiveRoutes}
    (hun : op.isUnaccepted h.accepted = true) (hroutes : R (op.refresh h.routes) routes) :
    (h.step op).Alike R { h' with routes } := by
  have hcourier : ∀ k, ((h.courier.count k).enqueueAll []).Alike h'.courier := fun k =>
    .of_eq ha.courier.registry ha.courier.transport (by
      rw [ha.courier.waiting]
      exact (List.append_nil _).symm)
  cases op with
  | request node r now =>
    show (Api.handle h node now r).2.Alike R _
    rw [handle_eq_serve]
    dsimp only [ServerOp.isUnaccepted, ServerOp.event?] at hun
    cases hevent : r.asked.event? with
    | none =>
      rw [hevent] at hun
      cases hun
    | some e =>
      rw [hevent] at hun
      obtain ⟨hcheck, htold⟩ := told_unaccepted (h := h) hun now
      have hasked := Asked.event?_eq_some.mp hevent
      rw [ServerOp.refresh_request hasked] at hroutes
      rw [hasked]
      unfold Hub.serve
      dsimp only
      rw [receive_wellFormed hcheck, htold]
      exact { ha with courier := hcourier _, routes := hroutes }
  | publish e now =>
    obtain ⟨hcheck, htold⟩ := told_unaccepted (h := h) hun now
    unfold Hub.step
    dsimp only
    rw [publish_wellFormed hcheck, htold]
    exact { ha with courier := hcourier (.received e.kind), routes := hroutes }
  | _ => cases hun

omit [Transport τ] in
theorem accepted_serve (h : Hub MemoryStore τ) (now : Timestamp) (a : Asked) :
    (h.serve now a).accepted = h.accepted := by
  cases a with
  | nothing | manage op => rfl
  | event e =>
    unfold serve
    dsimp only
    cases hcheck : e.check with
    | error err => rw [receive_malformed hcheck]; rfl
    | ok => rw [receive_wellFormed hcheck]

/-- Who is accepted never changes. -/
theorem accepted_step (h : Hub MemoryStore τ) (op : ServerOp) :
    (h.step op).accepted = h.accepted := by
  cases op with
  | request node r now =>
    show (Api.handle h node now r).2.accepted = _
    rw [handle_eq_serve, accepted_serve]
  | publish e now =>
    unfold Hub.step
    dsimp only
    cases hcheck : e.check with
    | error err => rw [publish_malformed hcheck]
    | ok => rw [publish_wellFormed hcheck]
  | _ => rfl

/-! ## Two runs -/

/-- What a run answers, but to events that are not accepted. -/
def answersBut (h : Hub MemoryStore τ) (accepted : List String) : List ServerOp → List ServerAnswer
  | [] => []
  | op :: ops =>
    (if op.isUnaccepted accepted then [] else (h.answer op).toList) ++
      (h.step op).answersBut accepted ops

theorem answersBut_append {ops later : List ServerOp} : h.answersBut accepted (ops ++ later) =
    h.answersBut accepted ops ++ (h.run ops).answersBut accepted later := by
  induction ops generalizing h with
  | nil => rfl
  | cons op ops ih => rw [List.cons_append, answersBut, answersBut, ih, run, List.append_assoc]

theorem answersBut_unaccepted {op : ServerOp} (hun : op.isUnaccepted accepted = true) :
    h.answersBut accepted [op] = [] := by
  rw [answersBut, if_pos hun]
  rfl

/-- Runs in which operations are left out or replaced by others that do and answer the same. -/
theorem alike_run {swap : ServerOp → Option ServerOp} {ops : List ServerOp}
    (hswap : ∀ op ∈ ops, ∀ h h' : Hub MemoryStore τ, h.accepted = accepted → h.Alike R h' →
      (h.step op).Alike R (h'.run (swap op).toList) ∧
      h'.answersBut accepted (swap op).toList = h.answersBut accepted [op])
    (haccepted : h.accepted = accepted) (ha : h.Alike R h') :
    (h.run ops).Alike R (h'.run (ops.filterMap swap)) ∧
    h'.answersBut accepted (ops.filterMap swap) = h.answersBut accepted ops := by
  rw [List.filterMap_eq_flatMap_toList]
  induction ops generalizing h h' with
  | nil => exact ⟨ha, rfl⟩
  | cons op ops ih =>
    obtain ⟨hfirst, hrest⟩ := List.forall_mem_cons.mp hswap
    obtain ⟨halike, hanswers⟩ := hfirst h h' haccepted ha
    obtain ⟨halikes, hlater⟩ := ih hrest ((accepted_step h op).trans haccepted) halike
    rw [List.flatMap_cons, run_append, answersBut_append, hanswers, hlater, ← List.singleton_append]
    exact ⟨halikes, answersBut_append.symm⟩

/-- An operation that is kept. -/
theorem Alike.kept (ha : h.Alike R h') (hR : Unnoticed R) {op : ServerOp}
    (hop : op.writesRoutes = true → R = Eq) :
    (h.step op).Alike R (h'.run [op]) ∧ h'.answersBut accepted [op] = h.answersBut accepted [op] := by
  refine ⟨ha.step hR hop, ?_⟩
  rw [answersBut, answersBut, ha.answer hR hop]
  rfl

/-- What a journey update that is posted does to the live routes alone. -/
theorem run_refreshing (h : Hub MemoryStore τ) {op : ServerOp} (hun : op.isUnaccepted accepted = true) :
    h.run (op.refreshing accepted).toList = { h with routes := op.refresh h.routes } ∧
    h.answersBut accepted (op.refreshing accepted).toList = [] := by
  unfold ServerOp.refreshing
  rw [if_pos hun]
  cases hjourney : op.journey? with
  | none =>
    refine ⟨?_, rfl⟩
    unfold ServerOp.refresh
    rw [hjourney]
    rfl
  | some update => exact ⟨rfl, rfl⟩

/-- **Events that are not accepted** bring the live routes up to date and do nothing else. When they are
left out, but for what journey updates do to the live routes, everything stays the same but the
counters, and so do the other answers. When they are left out altogether of a run that forgets no live
routes, and none of them sets one, everything stays the same but the counters and when live routes were
seen. -/
theorem unaccepted_unnoticed (h : Hub MemoryStore τ) (ops : List ServerOp) :
    let refreshed := ops.filterMap (ServerOp.refreshing h.accepted)
    let others := ops.filter fun op => !op.isUnaccepted h.accepted
    (h.run ops).Alike Eq (h.run refreshed) ∧
    h.answersBut h.accepted refreshed = h.answersBut h.accepted ops ∧
    ((∀ op ∈ ops, op.writesRoutes = false) →
      (∀ op ∈ ops, op.isUnaccepted h.accepted = true → op.setsRoute = false) →
      (h.run ops).Alike SameStops (h.run others) ∧
      h.answersBut h.accepted others = h.answersBut h.accepted ops) := by
  intro refreshed others
  have hsame : h.Alike Eq h := ⟨⟨_, rfl⟩, rfl, rfl, rfl, rfl, rfl⟩
  have hsees : h.Alike SameStops h := { hsame with routes := fun _ => rfl }
  have hothers : others = ops.filterMap (Option.guard fun op => !op.isUnaccepted h.accepted) :=
    (congrFun List.filterMap_eq_filter ops).symm
  rw [hothers, ← and_assoc]
  refine ⟨alike_run (fun op _ g g' hg ha => ?_) rfl hsame, fun hroutes hset =>
    alike_run (fun op hop g g' hg ha => ?_) rfl hsees⟩
  · cases hun : op.isUnaccepted h.accepted with
    | false =>
      rw [ServerOp.refreshing, hun, if_neg Bool.false_ne_true]
      exact ha.kept .eq fun _ => rfl
    | true =>
      obtain ⟨hrun, hanswers⟩ := run_refreshing g' hun
      rw [hrun, hanswers, answersBut_unaccepted hun]
      exact ⟨ha.step_unaccepted (hg ▸ hun) (congrArg op.refresh ha.routes), rfl⟩
  · cases hun : op.isUnaccepted h.accepted with
    | false =>
      simp only [Option.guard, hun, Bool.not_false, if_true, Option.toList_some]
      exact ha.kept .sameStops fun hwrites => absurd hwrites (by simp [hroutes op hop])
    | true =>
      simp only [Option.guard, hun, Bool.not_true, Bool.false_eq_true, if_false, Option.toList_none]
      rw [answersBut_unaccepted hun]
      exact ⟨ha.step_unaccepted (hg ▸ hun) (ServerOp.sameStops_refresh ha.routes (hset op hop hun)), rfl⟩

/-- A subscription to journeys from A to B, and a journey update of another producer. It shows where
the journey goes, so the update that follows is pushed. -/
def routeShown : List ServerOp :=
  [.request "" (posting "/subscriptions"
      ("\x7b\"name\":\"n\",\"pushAddress\":\"http://a\"," ++
        "\"fromStops\":[\"A\"],\"toStops\":[\"B\"]\x7d")) .epoch,
    .request "" (posting "/events/journeys"
      ("\x7b\"lineRef\":\"L\",\"datedVehicleJourneyRef\":\"j\",\"dataSource\":\"XYZ\"," ++
        "\"isCompleteStopSequence\":true,\"estimatedCalls\":[" ++
        "\x7b\"stopPointRef\":\"A\"\x7d,\x7b\"stopPointRef\":\"B\"\x7d]\x7d")) .epoch,
    .request "" (posting "/events/journeys"
      ("\x7b\"lineRef\":\"L\",\"datedVehicleJourneyRef\":\"j\",\"dataSource\":\"NSB\"," ++
        "\"estimatedCalls\":[\x7b\"stopPointRef\":\"B\"\x7d]\x7d")) .epoch]

/-- An update that is not accepted decides whether an accepted one that follows is pushed. -/
theorem unaccepted_noticed :
    let h := { vacant with accepted := ["NSB"] }
    let others := routeShown.filter fun op => !op.isUnaccepted ["NSB"]
    routeShown.map (ServerOp.isUnaccepted ["NSB"]) = [false, true, false] ∧
    (h.run routeShown).courier.waiting.length = 1 ∧ (h.run others).courier.waiting.length = 0 ∧
    h.answersBut ["NSB"] others ≠ h.answersBut ["NSB"] routeShown := by
  decide +kernel

/-- When the stops of the journey are known already, updates of the other producer show no more than
that it is still seen. -/
theorem unaccepted_unnoticed_routeKnown :
    let h := { vacant with accepted := ["NSB"], routes := LiveRoutes.put ∅ "j" ["A", "B"] .epoch }
    let seen : ServerOp := .request "" (posting "/events/journeys"
      "\x7b\"datedVehicleJourneyRef\":\"j\",\"dataSource\":\"XYZ\"\x7d") ⟨1, 0, by decide⟩
    let ops := [routeShown[0], seen, routeShown[2], seen]
    let others := ops.filter fun op => !op.isUnaccepted ["NSB"]
    others.length = 2 ∧ (h.run ops).courier.waiting.length = 1 ∧
    (h.run ops).routes ≠ (h.run others).routes ∧
    (h.run ops).Alike SameStops (h.run others) ∧
    h.answersBut ["NSB"] others = h.answersBut ["NSB"] ops := by
  intro h seen ops others
  obtain ⟨-, -, hothers⟩ := unaccepted_unnoticed h ops
  have hroutes : ∀ op ∈ ops, op.writesRoutes = false := by decide +kernel
  have hset : ∀ op ∈ ops, op.isUnaccepted h.accepted = true → op.setsRoute = false := by
    decide +kernel
  obtain ⟨halike, hanswers⟩ := hothers hroutes hset
  exact ⟨by decide +kernel, by decide +kernel, by decide +kernel, halike, hanswers⟩

end Hub
end TransitPush
