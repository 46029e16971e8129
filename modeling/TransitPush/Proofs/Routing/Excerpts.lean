import Mathlib.Data.List.Forall2
import TransitPush.Proofs.Registry.Validity
import TransitPush.Proofs.Routing.Remainder
/-!
# Excerpts of situations

A subscriber gets an excerpt of what a situation affects. An excerpt comes about by leaving out:
networks and lines of a network, stop places, journeys, routes of a journey, points of a route. It has
nothing in it that is not for the subscriber, and among the excerpts that have not, it is the largest.

* `Thinned`: a list that comes from another by leaving items out and thinning those that stay.
* `Route.PartOf`, `AffectedJourney.PartBy`, `Network.PartOf`, `Scope.PartBy`: what leaving out means at
  each level. Parts of each other are equal (`Scope.PartBy.antisymm`).
* `Scope.Fits`: nothing is in it that is not for the subscriber.
* `Scope.IsExcerpt`: the excerpt for a subscriber, which is unique (`Scope.IsExcerpt.unique`);
  `Scope.isExcerpt_excerpt`: what trimming makes of a scope is it.
* `Situation.trimmed?_exact`: the copy of a situation that a subscriber gets.
-/
namespace TransitPush

/-! ## Lists with items left out -/

/-- The list comes from another by leaving items out; those that stay are in relation to what they
were. -/
def Thinned {α : Type} (R : α → α → Prop) (kept all : List α) : Prop :=
  List.SublistForall₂ R kept all

namespace Thinned

variable {α : Type} {R S : α → α → Prop} {kept all : List α}

theorem iff_sublist : Thinned R kept all ↔ ∃ were, List.Forall₂ R kept were ∧ were.Sublist all :=
  List.sublistForall₂_iff

theorem refl (hR : ∀ a, R a a) (all : List α) : Thinned R all all :=
  iff_sublist.mpr ⟨all, List.forall₂_same.mpr fun a _ => hR a, List.Sublist.refl all⟩

theorem imp (h : Thinned R kept all) (hRS : ∀ a ∈ kept, ∀ b, R a b → S a b) :
    Thinned S kept all := by
  induction h with
  | nil => exact .nil
  | cons hab _ ih =>
    exact .cons (hRS _ List.mem_cons_self _ hab)
      (ih fun a ha => hRS a (List.mem_cons_of_mem _ ha))
  | cons_right _ ih => exact .cons_right (ih hRS)

/-- What fails a test that holds of every item to which one that stays is related can be left out
first. -/
theorem filter_right (h : Thinned R kept all) {p : α → Bool}
    (hp : ∀ a ∈ kept, ∀ b, R a b → p b = true) : Thinned R kept (all.filter p) := by
  induction h with
  | nil => exact .nil
  | cons hab _ ih =>
    rw [List.filter_cons_of_pos (hp _ List.mem_cons_self _ hab)]
    exact .cons hab (ih fun a ha => hp a (List.mem_cons_of_mem _ ha))
  | @cons_right b _ _ _ ih =>
    rw [List.filter_cons]
    split
    · exact .cons_right (ih hp)
    · exact ih hp

theorem map_right (h : Thinned R kept all) {f : α → α}
    (hf : ∀ a ∈ kept, ∀ b, R a b → R a (f b)) : Thinned R kept (all.map f) :=
  List.sublistForall₂_map_right_iff.mpr (h.imp hf)

theorem map_filter {f : α → α} (hf : ∀ a, R (f a) a) (p : α → Bool) (all : List α) :
    Thinned R ((all.map f).filter p) all := by
  induction all with
  | nil => exact .nil
  | cons a all ih =>
    rw [List.map_cons, List.filter_cons]
    split
    · exact .cons (hf a) ih
    · exact .cons_right ih

theorem of_filter {p : α → Bool} (h : Thinned R kept (all.filter p)) : Thinned R kept all := by
  obtain ⟨were, hrel, hsub⟩ := iff_sublist.mp h
  exact iff_sublist.mpr ⟨were, hrel, hsub.trans List.filter_sublist⟩

theorem exists_mem (h : Thinned R kept all) {a : α} (ha : a ∈ kept) : ∃ b ∈ all, R a b := by
  induction h with
  | nil => cases ha
  | cons hab _ ih =>
    rcases List.mem_cons.mp ha with rfl | ha
    · exact ⟨_, List.mem_cons_self, hab⟩
    · obtain ⟨b, hb, hab⟩ := ih ha
      exact ⟨b, List.mem_cons_of_mem _ hb, hab⟩
  | cons_right _ ih =>
    obtain ⟨b, hb, hab⟩ := ih ha
    exact ⟨b, List.mem_cons_of_mem _ hb, hab⟩

theorem antisymm (hR : ∀ a b, R a b → R b a → a = b) (h : Thinned R kept all)
    (h' : Thinned R all kept) : kept = all := by
  have hpointwise : ∀ {kept all : List α}, List.Forall₂ R kept all → List.Forall₂ R all kept →
      kept = all := by
    intro kept all h h'
    induction h with
    | nil => rfl
    | cons hab _ ih =>
      cases h' with
      | cons hba h' => rw [hR _ _ hab hba, ih h']
  obtain ⟨were, hrel, hsub⟩ := iff_sublist.mp h
  obtain ⟨were', hrel', hsub'⟩ := iff_sublist.mp h'
  -- neither list can be shorter, so nothing was left out
  have hlength := hrel.length_eq
  have hlength' := hrel'.length_eq
  have hle := hsub.length_le
  have hle' := hsub'.length_le
  obtain rfl := hsub.eq_of_length (by omega)
  obtain rfl := hsub'.eq_of_length (by omega)
  exact hpointwise hrel hrel'

end Thinned

/-- If nothing that is left fails a test, what fails it can be left out first. -/
theorem sublist_filter_of_forall {α : Type} {kept all : List α} {p : α → Bool}
    (h : kept.Sublist all) (hp : ∀ a ∈ kept, p a = true) : kept.Sublist (all.filter p) := by
  have hsub := h.filter p
  rwa [List.filter_eq_self.mpr hp] at hsub

/-! ## Parts -/

def Route.links (r : Route) : List RoutePoint :=
  r.points.filter fun p => !p.isStop

def Route.PartOf (r whole : Route) : Prop :=
  Option.Rel (fun a b => a.affectedOnly = b.affectedOnly ∧ a.points.Sublist b.points)
    r.stops whole.stops

/-- The route with stops left out, and the shapes of all links. -/
def Route.CutOf (r whole : Route) : Prop :=
  r.PartOf whole ∧ r.links = whole.links

/-- The journey with routes left out; those that stay are in relation to what they were. -/
structure AffectedJourney.PartBy (R : Route → Route → Prop) (j whole : AffectedJourney) : Prop where
  lineRef : j.lineRef = whole.lineRef
  journeyRefs : j.journeyRefs = whole.journeyRefs
  routes : Thinned R j.routes whole.routes

structure Network.PartOf (n whole : Network) : Prop where
  ref : n.ref = whole.ref
  lines : n.lines.Sublist whole.lines

/-- The sections that are passed on come from those of a scope by leaving out; the routes that stay are
in relation to what they were. -/
structure Scope.PartBy (R : Route → Route → Prop) (part whole : Scope) : Prop where
  networks : Thinned Network.PartOf part.networks whole.networks
  stopPlaces : part.stopPlaces.Sublist whole.stopPlaces
  journeys : Thinned (AffectedJourney.PartBy R) part.journeys whole.journeys

namespace Route

variable {r whole : Route}

theorem PartOf.refl (r : Route) : r.PartOf r := by
  obtain ⟨_ | stops⟩ := r
  · exact .none
  · exact .some ⟨rfl, List.Sublist.refl _⟩

theorem PartOf.points (h : r.PartOf whole) : r.points.Sublist whole.points := by
  obtain ⟨stops⟩ := r
  obtain ⟨stops'⟩ := whole
  cases h with
  | none => exact List.Sublist.refl _
  | some h => exact h.2

theorem PartOf.antisymm (h : r.PartOf whole) (h' : whole.PartOf r) : r = whole := by
  obtain ⟨stops⟩ := r
  obtain ⟨stops'⟩ := whole
  cases h with
  | none => rfl
  | @some a b h =>
    cases h' with
    | some h' =>
      obtain ⟨affectedOnly, points⟩ := a
      obtain ⟨affectedOnly', points'⟩ := b
      obtain ⟨rfl, hpoints⟩ := h
      obtain rfl := hpoints.antisymm h'.2
      rfl

theorem CutOf.refl (r : Route) : r.CutOf r :=
  ⟨.refl r, rfl⟩

end Route

namespace AffectedJourney

variable {R S : Route → Route → Prop} {j whole : AffectedJourney}

theorem PartBy.refl (hR : ∀ r, R r r) (j : AffectedJourney) : j.PartBy R j :=
  ⟨rfl, rfl, .refl hR _⟩

theorem PartBy.imp (h : j.PartBy R whole) (hRS : ∀ r whole, R r whole → S r whole) :
    j.PartBy S whole :=
  ⟨h.lineRef, h.journeyRefs, h.routes.imp fun r _ => hRS r⟩

theorem PartBy.antisymm (hR : ∀ r whole, R r whole → R whole r → r = whole)
    (h : j.PartBy R whole) (h' : whole.PartBy R j) : j = whole := by
  obtain ⟨lineRef, journeyRefs, routes⟩ := j
  obtain ⟨rfl, rfl, hroutes⟩ := h
  obtain rfl := hroutes.antisymm hR h'.routes
  rfl

end AffectedJourney

namespace Network

variable {n whole : Network}

theorem PartOf.refl (n : Network) : n.PartOf n :=
  ⟨rfl, List.Sublist.refl _⟩

theorem PartOf.antisymm (h : n.PartOf whole) (h' : whole.PartOf n) : n = whole := by
  obtain ⟨ref, lines⟩ := n
  obtain ⟨rfl, hlines⟩ := h
  obtain rfl := hlines.antisymm h'.lines
  rfl

end Network

namespace Scope

variable {R S : Route → Route → Prop} {part whole : Scope}

/-- The scope has no section that is not passed on. -/
def IsProfile (scope : Scope) : Prop :=
  scope.profile = scope

/-- No section that is passed on has anything in it. -/
def IsVacant (scope : Scope) : Prop :=
  scope.networks = [] ∧ scope.stopPlaces = [] ∧ scope.journeys = []

theorem hasProfile_eq_false : whole.hasProfile = false ↔ whole.IsVacant := by
  simp only [hasProfile, IsVacant, Bool.or_eq_false_iff, Bool.not_eq_false', List.isEmpty_iff]
  tauto

theorem PartBy.refl (hR : ∀ r, R r r) (scope : Scope) : scope.PartBy R scope :=
  ⟨.refl Network.PartOf.refl _, List.Sublist.refl _, .refl (AffectedJourney.PartBy.refl hR) _⟩

theorem PartBy.imp (h : part.PartBy R whole) (hRS : ∀ r whole, R r whole → S r whole) :
    part.PartBy S whole :=
  ⟨h.networks, h.stopPlaces, h.journeys.imp fun _ _ _ hj => hj.imp hRS⟩

/-- The sections that are not passed on do not matter. -/
theorem PartBy.of_profile (h : part.PartBy R whole.profile) : part.PartBy R whole :=
  ⟨h.networks, h.stopPlaces, h.journeys⟩

/-- Parts of each other are equal. -/
theorem PartBy.antisymm (hpart : part.IsProfile) (hwhole : whole.IsProfile)
    (h : part.PartBy Route.PartOf whole) (h' : whole.PartBy Route.PartOf part) : part = whole := by
  have hnetworks := h.networks.antisymm (fun _ _ => Network.PartOf.antisymm) h'.networks
  have hplaces := h.stopPlaces.antisymm h'.stopPlaces
  have hjourneys := h.journeys.antisymm
    (fun _ _ => AffectedJourney.PartBy.antisymm fun _ _ => Route.PartOf.antisymm) h'.journeys
  rw [← hpart, ← hwhole, profile, profile, hnetworks, hplaces, hjourneys]

end Scope

/-! ## What is for a subscriber -/

/-- The route has a stop, and all its stops are in a set. -/
structure Route.Fits (stops : RefSet) (r : Route) : Prop where
  nonempty : ∃ p ∈ r.points, p.isStop = true
  all : ∀ p ∈ r.points, p.isStop = true → ∃ ref, p.stopRef? = some ref ∧ ref ∈ stops

/-- The journey has a route and may be on a line of the subscription; if the subscription names stops,
its routes go by them alone. -/
structure AffectedJourney.Fits (s : Subscription) (stops : RefSet) (j : AffectedJourney) : Prop where
  routed : j.routes ≠ []
  line : j.MayBeOnLineOf s
  routes : s.hasNoStops = false → ∀ r ∈ j.routes, r.Fits stops

/-- The network has a line, and the subscription names all its lines. -/
structure Network.Fits (s : Subscription) (n : Network) : Prop where
  nonempty : n.lines ≠ []
  all : ∀ l ∈ n.lines, ∃ line, l.ref = some line ∧ line ∈ s.lineRefs

/-- All that is in the sections that are passed on is for the subscription. There are no stop places
for one that names no stops. -/
structure Scope.Fits (s : Subscription) (stops : RefSet) (scope : Scope) : Prop where
  networks : ∀ n ∈ scope.networks, n.Fits s
  stopPlaces : ∀ p ∈ scope.stopPlaces,
    s.hasNoStops = false ∧ ∃ ref, p.ref = some ref ∧ ref ∈ stops
  journeys : ∀ j ∈ scope.journeys, j.Fits s stops

/-- The excerpt of a scope for a subscription with the given stops: the sections that are passed on and
no others, as they are for who names neither stops nor lines, and else with what is for the
subscription. Nothing larger has nothing else in it. -/
structure Scope.IsExcerpt (s : Subscription) (stops : RefSet) (scope kept : Scope) : Prop where
  profile : kept.IsProfile
  part : kept.PartBy Route.CutOf scope
  whole : s.hasNoStops = true → s.lineRefs.isEmpty = true → kept = scope.profile
  fits : s.hasNoStops = false ∨ s.lineRefs.isEmpty = false → kept.Fits s stops
  largest : s.hasNoStops = false ∨ s.lineRefs.isEmpty = false →
    ∀ other : Scope, other.PartBy Route.PartOf scope → other.Fits s stops →
      other.PartBy Route.PartOf kept

variable {s : Subscription} {stops : RefSet}

/-! ## What trimming keeps -/

namespace Route

variable {r whole : Route}

theorem trimmed_cutOf (stops : RefSet) (r : Route) : (r.trimmed stops).CutOf r := by
  obtain ⟨_ | ⟨affectedOnly, points⟩⟩ := r
  · exact .refl _
  · refine ⟨.some ⟨rfl, List.filter_sublist⟩, ?_⟩
    refine (List.filter_filter).trans (List.filter_congr fun p _ => ?_)
    cases p <;> rfl

/-- Stops without a reference are not among those of a set. -/
theorem trimmed_fits (h : 0 < (r.trimmed stops).stopCount) : (r.trimmed stops).Fits stops where
  nonempty := List.countP_pos_iff.mp h
  all p hp hstop := by
    rcases (mem_points_trimmed.mp hp).2 with hin | ⟨-, hlink⟩
    · exact hin
    · rw [hstop] at hlink
      cases hlink

/-- A part that has only stops of a set is left when the others are taken out. -/
theorem Fits.partOf_trimmed (h : r.Fits stops) (hpart : r.PartOf whole) :
    r.PartOf (whole.trimmed stops) := by
  obtain ⟨rs⟩ := r
  obtain ⟨rs'⟩ := whole
  cases hpart with
  | none => exact .none
  | @some a b hpart =>
    obtain ⟨honly, hpoints⟩ := hpart
    refine .some ⟨honly, sublist_filter_of_forall hpoints fun p hp => ?_⟩
    cases p with
    | stop point =>
      obtain ⟨ref, href, hmem⟩ := h.all _ hp rfl
      rw [href]
      exact decide_eq_true hmem
    | link positions => rfl

end Route

namespace AffectedJourney

variable {j whole : AffectedJourney}

theorem trimmedRoutes_partBy (s : Subscription) (stops : RefSet) (j : AffectedJourney) :
    (j.trimmedRoutes s stops).PartBy Route.CutOf j := by
  unfold trimmedRoutes
  split
  · exact .refl Route.CutOf.refl j
  · exact ⟨rfl, rfl, .map_filter (Route.trimmed_cutOf stops) _ _⟩

theorem PartBy.mayBeOnLineOf {R : Route → Route → Prop} (h : j.PartBy R whole) :
    j.MayBeOnLineOf s ↔ whole.MayBeOnLineOf s := by
  unfold MayBeOnLineOf
  rw [h.lineRef]

theorem trimmedRoutes_fits (hline : j.MayBeOnLineOf s) (hroutes : (j.trimmedRoutes s stops).routes ≠ []) :
    (j.trimmedRoutes s stops).Fits s stops where
  routed := hroutes
  line := (trimmedRoutes_partBy s stops j).mayBeOnLineOf.mpr hline
  routes hstops r hr := by
    obtain ⟨before, -, rfl, hlists⟩ := (mem_routes_trimmedRoutes hstops).mp hr
    exact Route.trimmed_fits (Route.stopCount_trimmed.mpr hlists)

theorem Fits.partBy_trimmedRoutes (h : j.Fits s stops) (hpart : j.PartBy Route.PartOf whole) :
    j.PartBy Route.PartOf (whole.trimmedRoutes s stops) := by
  unfold trimmedRoutes
  split
  · exact hpart
  · rename_i hnot
    have hfits := h.routes (by simpa using hnot)
    refine ⟨hpart.lineRef, hpart.journeyRefs, ?_⟩
    have htrimmed := hpart.routes.map_right fun r hr _ hr' => (hfits r hr).partOf_trimmed hr'
    refine htrimmed.filter_right fun r hr whole hr' => decide_eq_true ?_
    obtain ⟨p, hp, hstop⟩ := (hfits r hr).nonempty
    exact List.countP_pos_iff.mpr ⟨p, hr'.points.subset hp, hstop⟩

end AffectedJourney

namespace Network

variable {n whole : Network}

theorem trimmed_partOf (s : Subscription) (n : Network) : (n.trimmed s).PartOf n :=
  ⟨rfl, List.filter_sublist⟩

theorem trimmed_fits (h : (n.trimmed s).lines ≠ []) : (n.trimmed s).Fits s :=
  ⟨h, fun _ hl => (mem_lines_trimmed.mp hl).2⟩

theorem Fits.partOf_trimmed (h : n.Fits s) (hpart : n.PartOf whole) : n.PartOf (whole.trimmed s) := by
  refine ⟨hpart.ref, sublist_filter_of_forall hpart.lines fun l hl => ?_⟩
  obtain ⟨line, href, hmem⟩ := h.all l hl
  rw [href]
  exact decide_eq_true hmem

end Network

/-! ## The excerpt -/

namespace Scope

variable {scope kept other : Scope}

def excerpt (s : Subscription) (stops : RefSet) (scope : Scope) : Scope :=
  if s.isFirehose then scope.profile else scope.profile.trimmed s stops

theorem trimmed_partBy (s : Subscription) (stops : RefSet) (scope : Scope) :
    (scope.trimmed s stops).PartBy Route.CutOf scope where
  networks := .map_filter (Network.trimmed_partOf s) _ _
  stopPlaces := by
    unfold trimmed
    dsimp only
    split
    · exact List.nil_sublist _
    · exact List.filter_sublist
  journeys := .of_filter (.map_filter (AffectedJourney.trimmedRoutes_partBy s stops) _ _)

theorem trimmed_fits (s : Subscription) (stops : RefSet) (scope : Scope) :
    (scope.trimmed s stops).Fits s stops where
  networks n hn := by
    obtain ⟨before, -, rfl, l, hl⟩ := mem_networks_trimmed.mp hn
    exact Network.trimmed_fits (List.ne_nil_of_mem hl)
  stopPlaces p hp := by
    obtain ⟨hstops, -, hin⟩ := mem_stopPlaces_trimmed.mp hp
    exact ⟨hstops, hin⟩
  journeys j hj := by
    obtain ⟨before, -, hline, rfl, r, hr⟩ := mem_journeys_trimmed.mp hj
    exact AffectedJourney.trimmedRoutes_fits hline (List.ne_nil_of_mem hr)

/-- Every part that has only what is for the subscription is a part of what trimming keeps. -/
theorem Fits.partBy_trimmed (h : other.Fits s stops) (hpart : other.PartBy Route.PartOf scope) :
    other.PartBy Route.PartOf (scope.trimmed s stops) where
  networks := by
    have htrimmed := hpart.networks.map_right fun n hn _ hn' => (h.networks n hn).partOf_trimmed hn'
    refine htrimmed.filter_right fun n hn whole hn' => ?_
    obtain ⟨l, hl⟩ := List.exists_mem_of_ne_nil _ (h.networks n hn).nonempty
    have hmem := hn'.lines.subset hl
    rw [Bool.not_eq_true', List.isEmpty_eq_false_iff_exists_mem]
    exact ⟨l, hmem⟩
  stopPlaces := by
    unfold trimmed
    dsimp only
    split
    · rename_i hstops
      have hnone : other.stopPlaces = [] := List.eq_nil_iff_forall_not_mem.mpr fun p hp => by
        have hnamed := (h.stopPlaces p hp).1
        rw [hstops] at hnamed
        cases hnamed
      rw [hnone]
    · refine sublist_filter_of_forall hpart.stopPlaces fun p hp => ?_
      obtain ⟨-, ref, href, hmem⟩ := h.stopPlaces p hp
      rw [href]
      exact decide_eq_true hmem
  journeys := by
    have honLine := hpart.journeys.filter_right (p := AffectedJourney.onLineOf s)
      fun j hj _ hj' => AffectedJourney.onLineOf_iff.mpr (hj'.mayBeOnLineOf.mp (h.journeys j hj).line)
    have htrimmed := honLine.map_right fun j hj _ hj' => (h.journeys j hj).partBy_trimmedRoutes hj'
    refine htrimmed.filter_right fun j hj whole hj' => ?_
    obtain ⟨r, hr⟩ := List.exists_mem_of_ne_nil _ (h.journeys j hj).routed
    obtain ⟨before, hmem, -⟩ := hj'.routes.exists_mem hr
    rw [Bool.not_eq_true', List.isEmpty_eq_false_iff_exists_mem]
    exact ⟨before, hmem⟩

/-- Who names neither stops nor lines and is fit to be stored wants all of some codespaces. -/
theorem isFirehose_eq (hs : s.WellFormed) : s.isFirehose = (s.hasNoStops && s.lineRefs.isEmpty) := by
  unfold Subscription.isFirehose Subscription.hasNoStops
  rcases hs.wanted with ⟨hfrom, -⟩ | hlines | hcodespaces
  · rw [hfrom]
    rfl
  · rw [hlines, Bool.and_false, Bool.false_and]
  · rw [hcodespaces, Bool.not_false, Bool.and_true]

/-- **What trimming makes of a scope is the excerpt for the subscription.** -/
theorem isExcerpt_excerpt (hs : s.WellFormed) (stops : RefSet) (scope : Scope) :
    scope.IsExcerpt s stops (scope.excerpt s stops) := by
  have hfirehose := isFirehose_eq hs
  unfold excerpt
  cases hwhole : s.hasNoStops && s.lineRefs.isEmpty with
  | true =>
    rw [hwhole] at hfirehose
    rw [if_pos hfirehose]
    obtain ⟨hstops, hlines⟩ := Bool.and_eq_true_iff.mp hwhole
    have hnot : ¬ (s.hasNoStops = false ∨ s.lineRefs.isEmpty = false) := by
      rw [hstops, hlines]
      simp
    exact ⟨rfl, .of_profile (.refl Route.CutOf.refl _), fun _ _ => rfl, fun hcut => absurd hcut hnot,
      fun hcut => absurd hcut hnot⟩
  | false =>
    rw [hwhole] at hfirehose
    rw [if_neg (by simp [hfirehose])]
    have hnot : ¬ (s.hasNoStops = true ∧ s.lineRefs.isEmpty = true) := by
      rw [← Bool.and_eq_true_iff, hwhole]
      exact Bool.false_ne_true
    refine ⟨rfl, .of_profile (trimmed_partBy s stops scope.profile),
      fun hstops hlines => absurd ⟨hstops, hlines⟩ hnot,
      fun _ => trimmed_fits s stops scope.profile, fun _ other hpart hfits => ?_⟩
    have hprofile : other.PartBy Route.PartOf scope.profile :=
      ⟨hpart.networks, hpart.stopPlaces, hpart.journeys⟩
    exact hfits.partBy_trimmed hprofile

/-- There is one excerpt. -/
theorem IsExcerpt.unique (h : scope.IsExcerpt s stops kept) (ho : scope.IsExcerpt s stops other) :
    kept = other := by
  by_cases hwhole : s.hasNoStops = true ∧ s.lineRefs.isEmpty = true
  · rw [h.whole hwhole.1 hwhole.2, ho.whole hwhole.1 hwhole.2]
  · have hcut : s.hasNoStops = false ∨ s.lineRefs.isEmpty = false := by
      rwa [not_and_or, Bool.not_eq_true, Bool.not_eq_true] at hwhole
    have hcutOf : ∀ r whole : Route, r.CutOf whole → r.PartOf whole := fun _ _ hr => hr.1
    exact PartBy.antisymm h.profile ho.profile
      (ho.largest hcut kept (h.part.imp hcutOf) (h.fits hcut))
      (h.largest hcut other (ho.part.imp hcutOf) (ho.fits hcut))

/-- An excerpt is the excerpt of itself. -/
theorem IsExcerpt.self (h : scope.IsExcerpt s stops kept) : kept.IsExcerpt s stops kept :=
  ⟨h.profile, .refl Route.CutOf.refl kept, fun _ _ => h.profile.symm, h.fits,
    fun _ _ hpart _ => hpart⟩

end Scope

/-! ## The copy of a situation -/

namespace Situation

variable {situation copy : Situation}

theorem trimmed?_eq_some : situation.trimmed? s stops = some copy ↔
    ∃ scope, situation.affects = some scope ∧ (scope.excerpt s stops).hasProfile = true ∧
      copy = { situation with affects := some (scope.excerpt s stops) } := by
  unfold trimmed? Scope.excerpt
  cases situation.affects with
  | none => simp
  | some scope =>
    simp only [Option.ite_none_right_eq_some, Option.some.injEq, exists_eq_left']
    exact and_congr_right fun _ => eq_comm

theorem trimmed?_eq_none : situation.trimmed? s stops = none ↔
    ∀ scope, situation.affects = some scope → (scope.excerpt s stops).hasProfile = false := by
  unfold trimmed? Scope.excerpt
  cases situation.affects with
  | none => simp
  | some scope => simp

/-- **The copy that a subscriber gets.** For every situation, every subscription fit to be stored and
any stops: there is one excerpt of what the situation affects for the subscription. The copy is the
situation with the excerpt in place of what it affects, and there is none exactly if the situation does
not say what it affects or the excerpt is vacant. The copy of the copy is the copy. -/
theorem trimmed?_exact (hs : s.WellFormed) (stops : RefSet) (situation : Situation) :
    (∀ scope : Scope, ∃! kept, scope.IsExcerpt s stops kept) ∧
    (∀ copy, situation.trimmed? s stops = some copy ↔
      ∃ scope kept : Scope, situation.affects = some scope ∧ scope.IsExcerpt s stops kept ∧ ¬ kept.IsVacant ∧
        copy = { situation with affects := some kept }) ∧
    (situation.trimmed? s stops = none ↔ situation.affects = none ∨
      ∃ scope kept : Scope, situation.affects = some scope ∧ scope.IsExcerpt s stops kept ∧ kept.IsVacant) ∧
    ∀ copy, situation.trimmed? s stops = some copy → copy.trimmed? s stops = some copy := by
  have hexcerpt := Scope.isExcerpt_excerpt hs stops
  have hvacant : ∀ scope : Scope, (scope.excerpt s stops).hasProfile = true ↔
      ¬ (scope.excerpt s stops).IsVacant := fun scope => by
    rw [← Scope.hasProfile_eq_false, Bool.not_eq_false]
  refine ⟨fun scope => ⟨_, hexcerpt scope, fun other ho => ho.unique (hexcerpt scope)⟩,
    fun copy => ?_, ?_, fun copy hcopy => ?_⟩
  · rw [trimmed?_eq_some]
    constructor
    · rintro ⟨scope, haffects, hprofile, rfl⟩
      exact ⟨scope, _, haffects, hexcerpt scope, (hvacant scope).mp hprofile, rfl⟩
    · rintro ⟨scope, kept, haffects, hkept, hleft, rfl⟩
      obtain rfl := hkept.unique (hexcerpt scope)
      exact ⟨scope, haffects, (hvacant scope).mpr hleft, rfl⟩
  · rw [trimmed?_eq_none]
    constructor
    · intro hnone
      cases haffects : situation.affects with
      | none => exact .inl rfl
      | some scope =>
        have hempty := hnone scope haffects
        exact .inr ⟨scope, _, rfl, hexcerpt scope, Scope.hasProfile_eq_false.mp hempty⟩
    · rintro (hnone | ⟨scope, kept, haffects, hkept, hempty⟩) other hother
      · rw [hnone] at hother
        cases hother
      · obtain rfl : scope = other := Option.some.inj (haffects.symm.trans hother)
        rw [← hkept.unique (hexcerpt scope)]
        exact Scope.hasProfile_eq_false.mpr hempty
  · obtain ⟨scope, haffects, hprofile, rfl⟩ := trimmed?_eq_some.mp hcopy
    have hself := (hexcerpt (scope.excerpt s stops)).unique (hexcerpt scope).self
    refine trimmed?_eq_some.mpr ⟨_, rfl, ?_, ?_⟩
    · rw [hself]
      exact hprofile
    · rw [hself]

def lineTraveller : Subscription :=
  ((Subscription.pushing "" "http://a").withStops "A" "B").withLine "1"

theorem lineTraveller_wellFormed : lineTraveller.WellFormed := by
  have hcheck : lineTraveller.normalized.check false = .ok () := by decide
  exact Subscription.wellFormed_of_check hcheck

/-- Two networks, three stop places, and journeys on the line, on another one, on none, and without a
route. The first has a route with the shape of a link and a stop without reference, and one elsewhere. -/
def manyParts : Scope :=
  { Scope.empty with
    area := some "north"
    networks := [⟨some "N", [⟨some "2"⟩, ⟨some "1"⟩, ⟨none⟩]⟩, ⟨none, [⟨some "2"⟩]⟩]
    stopPlaces := [⟨some "C", none⟩, ⟨some "A", none⟩, ⟨none, some "here"⟩]
    journeys := [
      ⟨some " 1 ", ["j"], [
        ⟨some ⟨true, [.stop ⟨some "A", none⟩, .link [], .stop ⟨none, some "here"⟩,
          .stop ⟨some "C", none⟩]⟩⟩,
        .through ["C"] true]⟩,
      ⟨some "2", [], [.through ["A", "B"] true]⟩,
      ⟨none, [], [.through ["C", "B"] false]⟩,
      ⟨some "1", [], []⟩] }

def fewParts : Scope :=
  { Scope.empty with
    networks := [⟨some "N", [⟨some "1"⟩]⟩]
    stopPlaces := [⟨some "A", none⟩]
    journeys := [
      ⟨some " 1 ", ["j"], [⟨some ⟨true, [.stop ⟨some "A", none⟩, .link []]⟩⟩]⟩,
      ⟨none, [], [.through ["B"] false]⟩] }

theorem trimmed?_exact_manyParts :
    let stops := RefSet.ofList ["A", "B"]
    let situation := { numbered "1" 1 with affects := some manyParts }
    let copy := { numbered "1" 1 with affects := some fewParts }
    lineTraveller.WellFormed ∧ situation.trimmed? lineTraveller stops = some copy ∧
    manyParts.IsExcerpt lineTraveller stops fewParts ∧
    copy.trimmed? lineTraveller stops = some copy := by
  intro stops situation copy
  obtain ⟨-, hsome, -, hagain⟩ := trimmed?_exact lineTraveller_wellFormed stops situation
  have hcopy : situation.trimmed? lineTraveller stops = some copy := by decide
  obtain ⟨scope, kept, haffects, hkept, -, hparts⟩ := (hsome copy).mp hcopy
  cases haffects
  obtain rfl := Option.some.inj (congrArg affects hparts)
  exact ⟨lineTraveller_wellFormed, hcopy, hkept, hagain copy hcopy⟩

/-- A journey whose line reference is blank stays, although the subscription names a line and the
reference without blanks is not it. -/
theorem trimmed?_blank_line :
    let j : AffectedJourney := ⟨some " ", [], [.through ["A"] true]⟩
    let situation := { numbered "1" 1 with affects := some { Scope.empty with journeys := [j] } }
    lineTraveller.WellFormed ∧ lineTraveller.lineRefs.isEmpty = false ∧
    situation.trimmed? lineTraveller (.ofList ["A", "B"]) = some situation ∧
    ¬ ((∃ line, j.lineRef = some line ∧ Text.trim line ∈ lineTraveller.lineRefs) ∨
      j.lineRef = none ∨ lineTraveller.lineRefs.isEmpty = true) := by
  refine ⟨lineTraveller_wellFormed, by decide, by decide, ?_⟩
  rintro (⟨line, hline, hmem⟩ | hnone | hempty)
  · cases hline
    exact absurd hmem (by decide)
  · cases hnone
  · exact absurd hempty (by decide)

end Situation
end TransitPush
