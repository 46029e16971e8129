import TransitPush.Proofs.Server.Removal
/-!
# What requests do

A request asks for an operation on the registry, brings an event, or wants to be shown something. Which
of these it is can be read from its path, method and body before anything is done, and it settles what
becomes of the server. A request that is refused leaves the server as it was, but an event that is
refused is counted.

* `Api.Request.asked`: what a request asks for.
* `Hub.handle_eq_serve`: the hub after a request, from what it asks for.
* `Hub.Alike`: hubs that differ in their counters, and in their live routes at most by a relation.
* `Hub.refused_unchanged`: requests that are not answered with success, after any run.
-/
namespace TransitPush

namespace Api

/-! ## What is asked for -/

def Response.succeeds (r : Response) : Bool :=
  200 ≤ r.status && r.status < 300

/-- What a request asks for: nothing that changes anything, an operation on the registry, or that an
event be received. -/
inductive Asked where
  | nothing
  | manage (op : RegistryOp)
  | event (e : Event)

namespace Request

/-- What is asked for with the value of a body; nothing with one that cannot be read. -/
def askedBy {α : Type} (r : Request) (f : Json.Format α) (ask : α → Asked) : Asked :=
  match r.read f with
  | .ok x => ask x
  | .error _ => .nothing

def askedAt (r : Request) (method : String) : Route → Asked
  | .health => .nothing
  | .subscriptions =>
    if method = "POST" then r.askedBy Subscription.format fun s => .manage (.put s) else .nothing
  | .enveloped =>
    if method = "POST" then r.askedBy Subscription.format fun s => .manage (.subscribe s)
    else .nothing
  | .subscription id =>
    if method = "DELETE" then id.elim .nothing fun id => .manage (.remove id) else .nothing
  | .situations =>
    if method = "POST" then r.askedBy Situation.format fun s => .event (.situation s)
    else .nothing
  | .journeys =>
    if method = "POST" then r.askedBy JourneyUpdate.format fun u => .event (.journey u)
    else .nothing
  | .reload => if method = "POST" then .manage .reload else .nothing

def asked (r : Request) : Asked :=
  match Route.ofPath? r.path with
  | some route => r.askedAt r.method route
  | none => .nothing

theorem askedAt_get (r : Request) (route : Route) : r.askedAt "GET" route = .nothing := by
  cases route <;> rfl

theorem askedAt_head (r : Request) (route : Route) : r.askedAt "HEAD" route = .nothing := by
  cases route <;> rfl

end Request
end Api

/-- Two couriers differ in their counters alone. -/
def Courier.Alike {σ τ : Type} (c c' : Courier σ τ) : Prop :=
  ∃ counters, c' = { c with counters }

/-- The live routes after an event has come in: a journey update brings them up to date. -/
def Event.refresh (now : Timestamp) (rs : LiveRoutes) : Event → LiveRoutes
  | .situation _ => rs
  | .journey u => rs.update u now

namespace Hub

open Api

variable {τ : Type}

/-! ## What is done -/

/-- The hub after what a request asks for. A refused event is not brought to the live routes. -/
def serve (h : Hub MemoryStore τ) (now : Timestamp) : Asked → Hub MemoryStore τ
  | .nothing => h
  | .manage op => { h with courier := h.courier.manage op }
  | .event e =>
    match h.receive e now with
    | (.ok _, h) => { h with routes := e.refresh now h.routes }
    | (.error _, h) => h

/-- The hub after a request that is refused. -/
def refuse (h : Hub MemoryStore τ) : Asked → Hub MemoryStore τ
  | .event e => { h with courier := (h.courier.count (.received e.kind)).count (.rejected e.kind) }
  | _ => h

variable {h : Hub MemoryStore τ} {node : String} {now : Timestamp} {r : Request} {e : Event}

/-- The pushes that a well-formed event leads to, and the record of pushes after them. -/
def told (h : Hub MemoryStore τ) (e : Event) (now : Timestamp) : List Outgoing × DedupCache :=
  if e.isAccepted h.accepted then h.dedup.pushes now (h.matcher.copyFor e) (h.matcher.select e)
  else ([], h.dedup)

theorem publish_malformed {err : RouteError} (hcheck : e.check = .error err) :
    h.publish e now = .error err := by
  unfold publish route TransitPush.route
  rw [hcheck]

theorem publish_wellFormed (hcheck : e.check = .ok ()) :
    h.publish e now = .ok ((h.told e now).1.length,
      { h with
        dedup := (h.told e now).2
        courier := h.courier.enqueueAll ((h.told e now).1.map .push) }) := by
  unfold publish route TransitPush.route told
  rw [hcheck]
  dsimp only
  cases e.isAccepted h.accepted <;> rfl

theorem receive_malformed {err : RouteError} (hcheck : e.check = .error err) :
    h.receive e now = (.error err, h.refuse (.event e)) := by
  unfold receive
  dsimp only
  rw [publish_malformed hcheck]
  rfl

theorem receive_wellFormed (hcheck : e.check = .ok ()) :
    h.receive e now = (.ok (h.told e now).1.length,
      { h with
        dedup := (h.told e now).2
        courier := (h.courier.count (.received e.kind)).enqueueAll ((h.told e now).1.map .push) }) := by
  unfold receive
  dsimp only
  rw [publish_wellFormed hcheck]
  rfl

/-- An event leaves the registry alone. -/
theorem registry_serve_event : (h.serve now (.event e)).registry = h.registry := by
  rw [serve]
  cases hcheck : e.check with
  | error err => rw [receive_malformed hcheck]; rfl
  | ok => rw [receive_wellFormed hcheck]; rfl

/-! ## One route after another -/

theorem save_eq_serve {save : Subscription → Except RegistryError (Subscription × Registry MemoryStore)}
    {op : Subscription → RegistryOp}
    (hop : ∀ s, h.courier.manage (op s) = match save s with
      | .ok (_, registry) => { h.courier with registry }
      | .error _ => h.courier) :
    (Api.save h r save).2 = h.serve now (r.askedBy Subscription.format fun s => .manage (op s)) := by
  unfold Api.save Request.askedBy
  cases r.read Subscription.format with
  | error status => rfl
  | ok s =>
    simp only [serve, hop]
    cases save s <;> rfl

theorem delete_eq_serve (id : Option String) :
    (Api.delete h id).2 = h.serve now (id.elim .nothing fun id => .manage (.remove id)) := by
  cases id with
  | none => rfl
  | some id =>
    have hremove : h.registry.remove id =
        .ok ((h.registry.store.remove id).1, h.registry.without id) := rfl
    rw [Api.delete, hremove]
    cases (h.registry.store.remove id).1 <;> rfl

theorem postSituation_eq_serve :
    (Api.postSituation h r now).2 =
      h.serve now (r.askedBy Situation.format fun s => .event (.situation s)) := by
  unfold Api.postSituation Request.askedBy
  cases r.read Situation.format with
  | error status => rfl
  | ok s =>
    dsimp only [serve]
    generalize h.receive (.situation s) now = received
    obtain ⟨_ | _, _⟩ := received <;> rfl

theorem postJourney_eq_serve :
    (Api.postJourney h r now).2 =
      h.serve now (r.askedBy JourneyUpdate.format fun u => .event (.journey u)) := by
  unfold Api.postJourney Request.askedBy
  cases r.read JourneyUpdate.format with
  | error status => rfl
  | ok u =>
    dsimp only [serve]
    generalize h.receive (.journey u) now = received
    obtain ⟨_ | _, _⟩ := received <;> rfl

theorem perform_eq_serve (h : Hub MemoryStore τ) (node : String) (now : Timestamp) (r : Request)
    (method : String) (route : Api.Route) :
    (Api.perform h node now r method route).2 = h.serve now (r.askedAt method route) := by
  cases route with
  | health =>
    dsimp only [Api.perform]
    split <;> rfl
  | subscriptions =>
    dsimp only [Api.perform, Request.askedAt]
    split
    · rfl
    · refine save_eq_serve fun s => ?_
      rw [Courier.manage, registry]
      cases h.courier.registry.put s <;> rfl
    · rename_i hpost
      rw [if_neg hpost]
      rfl
  | enveloped =>
    dsimp only [Api.perform, Request.askedAt]
    split
    · refine save_eq_serve fun s => ?_
      rw [Courier.manage, registry]
      cases h.courier.registry.subscribe s <;> rfl
    · rename_i hpost
      rw [if_neg hpost]
      rfl
  | subscription id =>
    dsimp only [Api.perform, Request.askedAt]
    split
    · rfl
    · exact delete_eq_serve id
    · rename_i hdelete
      rw [if_neg hdelete]
      rfl
  | situations =>
    dsimp only [Api.perform, Request.askedAt]
    split
    · exact postSituation_eq_serve
    · rename_i hpost
      rw [if_neg hpost]
      rfl
  | journeys =>
    dsimp only [Api.perform, Request.askedAt]
    split
    · exact postJourney_eq_serve
    · rename_i hpost
      rw [if_neg hpost]
      rfl
  | reload =>
    dsimp only [Api.perform, Request.askedAt]
    split
    · rfl
    · rename_i hpost
      rw [if_neg hpost]
      rfl

/-- **What a request does** is what it asks for. -/
theorem handle_eq_serve (h : Hub MemoryStore τ) (node : String) (now : Timestamp) (r : Request) :
    (Api.handle h node now r).2 = h.serve now r.asked := by
  unfold Api.handle Request.asked
  cases Route.ofPath? r.path with
  | none => rfl
  | some route =>
    dsimp only
    split
    · rename_i hhead
      rw [hhead, Request.askedAt_head, ← Request.askedAt_get r route]
      exact perform_eq_serve h node now r "GET" route
    · exact perform_eq_serve h node now r r.method route

/-! ## What is refused -/

/-- Nothing was done for what was asked for, but that an event was counted, which was malformed. -/
structure Refuses (h after : Hub MemoryStore τ) (a : Asked) : Prop where
  unchanged : after = h.refuse a
  malformed : ∀ e, a = .event e → e.check ≠ .ok ()

namespace Refuses

theorem nothing (h : Hub MemoryStore τ) : h.Refuses h .nothing :=
  ⟨rfl, fun _ hevent => nomatch hevent⟩

theorem manage (h : Hub MemoryStore τ) (op : RegistryOp) : h.Refuses h (.manage op) :=
  ⟨rfl, fun _ hevent => nomatch hevent⟩

theorem save {save : Subscription → Except RegistryError (Subscription × Registry MemoryStore)}
    {op : Subscription → RegistryOp} (hrefused : (Api.save h r save).1.succeeds = false) :
    h.Refuses (Api.save h r save).2
      (r.askedBy Subscription.format fun s => .manage (op s)) := by
  unfold Api.save at hrefused ⊢
  unfold Request.askedBy
  cases hread : r.read Subscription.format with
  | error status => exact .nothing h
  | ok s =>
    rw [hread] at hrefused
    dsimp only at hrefused ⊢
    cases hsave : save s with
    | error e => exact .manage h (op s)
    | ok saved =>
      rw [hsave] at hrefused
      cases hrefused

/-- Whose removal is refused is not stored, and so has no entry in the schedule that would go. -/
theorem delete (hs : h.registry.Sound) {id : Option String}
    (hrefused : (Api.delete h id).1.succeeds = false) :
    h.Refuses (Api.delete h id).2 (id.elim .nothing fun id => .manage (.remove id)) := by
  cases id with
  | none => exact .nothing h
  | some id =>
    have hremove : h.registry.remove id =
        .ok ((h.registry.store.remove id).1, h.registry.without id) := rfl
    rw [Api.delete, hremove] at hrefused ⊢
    cases hget : h.registry.store.subscriptions.get? id with
    | some s =>
      have hfound : (h.registry.store.remove id).1 = some s := by
        unfold MemoryStore.remove
        rw [hget]
      rw [hfound] at hrefused
      cases hrefused
    | none =>
      have hsame : h.registry.without id = h.registry :=
        Registry.settled_gone hget (hs.unscheduled id hget) .reset
      rw [MemoryStore.remove_unused hget, hsame]
      exact .manage h (.remove id)

/-- An event is refused if it is malformed, and only then. -/
theorem event (hrefused : (queued (h.receive e now).1).succeeds = false) :
    h.Refuses (h.receive e now).2 (.event e) := by
  cases hcheck : e.check with
  | error err =>
    refine ⟨by rw [receive_malformed hcheck], fun e' he => ?_⟩
    cases he
    rw [hcheck]
    exact nofun
  | ok =>
    rw [receive_wellFormed hcheck] at hrefused
    cases hrefused

theorem postSituation (hrefused : (Api.postSituation h r now).1.succeeds = false) :
    h.Refuses (Api.postSituation h r now).2
      (r.askedBy Situation.format fun s => .event (.situation s)) := by
  unfold Api.postSituation at hrefused ⊢
  unfold Request.askedBy
  cases hread : r.read Situation.format with
  | error status => exact .nothing h
  | ok s =>
    rw [hread] at hrefused
    exact .event hrefused

theorem postJourney (hrefused : (Api.postJourney h r now).1.succeeds = false) :
    h.Refuses (Api.postJourney h r now).2
      (r.askedBy JourneyUpdate.format fun u => .event (.journey u)) := by
  unfold Api.postJourney at hrefused ⊢
  unfold Request.askedBy
  cases hread : r.read JourneyUpdate.format with
  | error status => exact .nothing h
  | ok u =>
    rw [hread] at hrefused
    dsimp only at hrefused ⊢
    have hevent := @event _ h now (.journey u)
    generalize h.receive (.journey u) now = received at hrefused hevent ⊢
    obtain ⟨_ | n, after⟩ := received
    · exact hevent hrefused
    · cases hrefused

theorem perform (hs : h.registry.Sound) {method : String} {route : Api.Route}
    (hrefused : (Api.perform h node now r method route).1.succeeds = false) :
    h.Refuses (Api.perform h node now r method route).2 (r.askedAt method route) := by
  cases route with
  | health =>
    dsimp only [Api.perform] at hrefused ⊢
    split <;> exact .nothing h
  | subscriptions =>
    dsimp only [Api.perform, Request.askedAt] at hrefused ⊢
    split at hrefused
    · cases hrefused
    · exact .save hrefused
    · rename_i hpost
      rw [if_neg hpost]
      exact .nothing h
  | enveloped =>
    dsimp only [Api.perform, Request.askedAt] at hrefused ⊢
    split at hrefused
    · exact .save hrefused
    · rename_i hpost
      rw [if_neg hpost]
      exact .nothing h
  | subscription id =>
    dsimp only [Api.perform, Request.askedAt] at hrefused ⊢
    split at hrefused
    · exact .nothing h
    · exact .delete hs hrefused
    · rename_i hdelete
      rw [if_neg hdelete]
      exact .nothing h
  | situations =>
    dsimp only [Api.perform, Request.askedAt] at hrefused ⊢
    split at hrefused
    · exact .postSituation hrefused
    · rename_i hpost
      rw [if_neg hpost]
      exact .nothing h
  | journeys =>
    dsimp only [Api.perform, Request.askedAt] at hrefused ⊢
    split at hrefused
    · exact .postJourney hrefused
    · rename_i hpost
      rw [if_neg hpost]
      exact .nothing h
  | reload =>
    dsimp only [Api.perform, Request.askedAt] at hrefused ⊢
    split at hrefused
    · cases hrefused
    · rename_i hpost
      rw [if_neg hpost]
      exact .nothing h

theorem handle (hs : h.registry.Sound)
    (hrefused : (Api.handle h node now r).1.succeeds = false) :
    h.Refuses (Api.handle h node now r).2 r.asked := by
  unfold Api.handle at hrefused ⊢
  unfold Request.asked
  cases hroute : Api.Route.ofPath? r.path with
  | none => exact .nothing h
  | some route =>
    rw [hroute] at hrefused
    dsimp only at hrefused ⊢
    split at hrefused
    · rename_i hhead
      rw [if_pos hhead, hhead, Request.askedAt_head, ← Request.askedAt_get r route]
      exact .perform hs hrefused
    · rename_i hhead
      rw [if_neg hhead]
      exact .perform hs hrefused

end Refuses

/-! ## Refused requests -/

/-- Two hubs differ in the counters alone, and in their live routes by no more than a relation. -/
structure Alike (R : LiveRoutes → LiveRoutes → Prop) (h h' : Hub MemoryStore τ) : Prop where
  courier : h.courier.Alike h'.courier
  topology : h'.topology = h.topology
  routes : R h.routes h'.routes
  dedup : h'.dedup = h.dedup
  accepted : h'.accepted = h.accepted
  planner : h'.planner = h.planner

theorem Alike.refuse (h : Hub MemoryStore τ) (a : Asked) : h.Alike Eq (h.refuse a) := by
  cases a <;> exact ⟨⟨_, rfl⟩, rfl, rfl, rfl, rfl, rfl⟩

end Hub

/-- The counters that go up by one when what is asked for is refused. -/
def Api.Asked.counted : Asked → List Counter
  | .event e => [.received e.kind, .rejected e.kind]
  | _ => []

/-- Counters of events share their names with no others. -/
theorem Counter.name_inj_of_event {c d : Counter} (kind : EventKind)
    (hc : c = .received kind ∨ c = .rejected kind) : d.name = c.name ↔ d = c := by
  refine ⟨fun hname => ?_, congrArg name⟩
  cases d with
  | pushed o =>
    have hlabel : o.label = "delivered" ∨ o.label = "reset" ∨ o.label = "failed" := by
      cases o <;> simp [Outcome.label]
    change labelled "ferry_pushes_total" "outcome" o.label = _ at hname
    rcases hc with rfl | rfl <;> rcases hlabel with hl | hl | hl <;> rw [hl] at hname <;>
      cases kind <;> exact absurd hname (by decide)
  | received other =>
    rcases hc with rfl | rfl <;> revert hname <;> cases kind <;> cases other <;> decide
  | rejected other =>
    rcases hc with rfl | rfl <;> revert hname <;> cases kind <;> cases other <;> decide
  | noticed notice =>
    rcases hc with rfl | rfl <;> revert hname <;> cases kind <;> cases notice <;> decide
  | removed why =>
    rcases hc with rfl | rfl <;> revert hname <;> cases kind <;> cases why <;> decide

namespace Hub

open Api

variable {τ : Type}

theorem value_refuse (h : Hub MemoryStore τ) (a : Asked) (c : Counter) :
    (h.refuse a).courier.counters.value c = h.courier.counters.value c + a.counted.count c := by
  cases a with
  | nothing => rfl
  | manage op => rfl
  | event e =>
    have hreceived := Counter.name_inj_of_event (d := c) e.kind (.inl rfl)
    have hrejected := Counter.name_inj_of_event (d := c) e.kind (.inr rfl)
    show ((h.courier.counters.bump (.received e.kind)).bump (.rejected e.kind)).value c = _
    simp only [Counters.value_bump, hreceived, hrejected, Asked.counted]
    grind

/-- **Refused requests leave no trace.** After any run from an empty store, a request that is not
answered with success changes nothing: not the subscriptions, their indexes or the schedule, which the
registry holds, nor the pushes that wait, the record of pushes or the live routes. Only a malformed
event goes into the counters, once as received and once as rejected. -/
theorem refused_unchanged [Transport τ] {h : Hub MemoryStore τ} (hstore : h.store = .empty)
    (hschedule : h.registry.schedule = ∅) (hids : h.registry.ids.Proper) (ops : List ServerOp)
    {node : String} {now : Timestamp} {r : Request}
    (hrefused : (Api.handle (h.run ops) node now r).1.succeeds = false) :
    let before := h.run ops
    let after := (Api.handle before node now r).2
    before.Alike Eq after ∧
    (∀ c, after.courier.counters.value c =
      before.courier.counters.value c + r.asked.counted.count c) ∧
    ∀ e, r.asked = .event e → e.check ≠ .ok () := by
  intro before after
  have hsound : before.registry.Sound := (ages_run (.empty hstore hschedule hids) ops).sound
  obtain ⟨hunchanged, hmalformed⟩ := Refuses.handle hsound hrefused
  have hafter : after = before.refuse r.asked := hunchanged
  rw [hafter]
  exact ⟨.refuse before r.asked, value_refuse before r.asked, hmalformed⟩

def posting (target document : String) : Request where
  method := "POST"
  target := target
  contentType := some "application/json"
  body := document.toUTF8

/-- The second of two removals of one subscription is refused, and so is a situation without number,
which is counted. -/
theorem refused_unchanged_removedBefore :
    let before := vacant.run (onTheirWay ++ [deletion])
    let again : Request :=
      { method := "DELETE", target := "/subscriptions/i", contentType := none, body := ⟨#[]⟩ }
    let nameless := posting "/events/situations" "\x7b\"participantRef\":\"NSB\"\x7d"
    (Api.handle before "" .epoch again).1.status = 404 ∧
    before.Alike Eq (Api.handle before "" .epoch again).2 ∧
    (Api.handle before "" .epoch nameless).1.status = 400 ∧
    before.Alike Eq (Api.handle before "" .epoch nameless).2 ∧
    (Api.handle before "" .epoch nameless).2.courier.counters.value (.rejected .situation) = 1 := by
  intro before again nameless
  have hagain : (Api.handle before "" .epoch again).1.succeeds = false := by decide +kernel
  have hnameless : (Api.handle before "" .epoch nameless).1.succeeds = false := by decide +kernel
  obtain ⟨hsame, -, -⟩ := refused_unchanged (h := vacant) rfl rfl Supply.tally_proper
    (onTheirWay ++ [deletion]) hagain
  obtain ⟨hsame', hcounters, -⟩ := refused_unchanged (h := vacant) rfl rfl Supply.tally_proper
    (onTheirWay ++ [deletion]) hnameless
  refine ⟨by decide +kernel, hsame, by decide +kernel, hsame', ?_⟩
  rw [hcounters]
  decide +kernel

end Hub
end TransitPush
