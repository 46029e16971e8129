import TransitPush.Proofs.Feed.Returning
import TransitPush.Proofs.Json.Yielding
/-!
# Feed values that are read

What is read of a feed returns: the free extensions of a scope come out settled and no deeper than the
document still allowed where the scope stood, and the heartbeat interval of a subscription comes out
with whole seconds. Nothing else has a form in which it would not be read back.

* `Scope.yields`, `Situation.yields`, `Event.yields`, `Envelope.yields`, `Subscription.yields`.
-/
namespace TransitPush

open Json (Fault Format Key Member Node Record Source Variant)

variable {k : Nat}

theorem Scope.yields : Scope.format.Yields (k + 1) (Scope.Settled k) := by
  refine Record.yields nofun ?_
  simp only [Scope.record, List.forall_mem_cons]
  -- the extensions are the second member
  refine ⟨?_, Member.field_keeps Format.option_free_yields fun _ _ hv _ => hv, ?_, ?_, ?_, ?_, ?_, ?_,
    ?_, ?_, nofun⟩
  all_goals exact Member.other_keeps fun _ _ hs => hs

theorem Situation.yields : Situation.format.Yields (k + 2) (Situation.Settled k) := by
  refine Record.yields nofun ?_
  simp only [Situation.record, List.forall_mem_cons]
  -- the scope is the last member
  refine ⟨?_, ?_, ?_, ?_, ?_, ?_, ?_,
    Member.field_keeps (Format.option_yields Scope.yields) fun _ _ hv _ => hv, nofun⟩
  all_goals exact Member.other_keeps fun _ _ hs => hs

theorem Event.yields : Event.format.Yields (k + 3) (Event.Settled k) := by
  refine Format.choice_yields (List.forall_mem_cons.mpr ⟨?_, List.forall_mem_cons.mpr ⟨?_, nofun⟩⟩)
  · exact Variant.of_yields Situation.yields fun _ hs => hs
  · exact Variant.of_yields (fun _ _ _ _ _ => trivial) fun _ (_ : True) => trivial

theorem Delivery.yields : Delivery.format.Yields (k + 4) (Delivery.Settled k) := by
  refine Format.choice_yields (List.forall_mem_cons.mpr ⟨?_, List.forall_mem_cons.mpr ⟨?_, nofun⟩⟩)
  · exact Variant.of_yields (fun _ _ _ _ _ => trivial) fun _ (_ : True) => trivial
  · exact Variant.of_yields (Format.list_yields Situation.yields) fun _ hs => hs

theorem ServiceDelivery.yields :
    ServiceDelivery.record.format.Yields (k + 5) fun d => d.delivery.Settled k := by
  refine Record.yields trivial ?_
  simp only [ServiceDelivery.record, List.forall_mem_cons]
  exact ⟨Member.other_keeps fun _ _ hd => hd, Member.other_keeps fun _ _ hd => hd,
    Member.field_keeps Delivery.yields fun _ _ hv _ => hv, nofun⟩

namespace Envelope

theorem readMembers_depth {source : Source} :
    ∀ {nodes : List (Key × Node)} {version version' : Option Version} {members : List (String × Json)},
      (∀ m ∈ nodes, source.Within m.2 k) →
      readMembers source version nodes = .ok (version', members) → ∀ m ∈ members, m.2.depth ≤ k
  | [], _, _, _, _, h => by
    cases h
    exact nofun
  | (key, n) :: rest, _, _, _, hwithin, h => by
    obtain ⟨hn, hrest⟩ := List.forall_mem_cons.mp hwithin
    rw [readMembers] at h
    obtain ⟨name, -, h⟩ := Json.ok_of_bind h
    split at h
    · split at h
      · cases h
      · obtain ⟨v, -, h⟩ := Json.ok_of_bind h
        exact readMembers_depth hrest h
    · obtain ⟨v, hv, h⟩ := Json.ok_of_bind h
      obtain ⟨⟨version, members⟩, hmembers, h⟩ := Json.ok_of_bind h
      cases h
      exact List.forall_mem_cons.mpr ⟨n.depth_free hn hv, readMembers_depth hrest hmembers⟩

theorem variants_yield : ∀ v ∈ variants, v.Yields (k + 5) (EnvelopeBody.Settled k) := by
  simp only [variants, List.forall_mem_cons]
  exact ⟨Variant.of_yields ServiceDelivery.yields fun _ hd => hd,
    Variant.of_yields (fun _ _ _ _ _ => trivial) fun _ (_ : True) => trivial,
    Variant.of_yields (fun _ _ _ _ _ => trivial) fun _ (_ : True) => trivial, nofun⟩

theorem readBody_settled {members : List (String × Json)} {body : EnvelopeBody}
    (hdepth : ∀ m ∈ members, m.2.depth ≤ k + 5) (h : readBody members = .ok body) :
    body.Settled k := by
  induction members with
  | nil => cases h
  | cons m rest ih =>
    obtain ⟨hm, hrest⟩ := List.forall_mem_cons.mp hdepth
    rw [readBody] at h
    split at h
    · rename_i variant hfind
      have hwithin : Source.held.Within (.ofJson m.2) (k + 5) := by
        show (Node.ofJson m.2).depth ≤ k + 5
        rw [Node.depth_ofJson]
        exact hm
      exact variants_yield variant (List.mem_of_find?_eq_some hfind) _ _ _ hwithin h
    · exact ih hrest h

theorem yields : format.Yields (k + 6) fun e => e.body.Settled k := by
  intro source n e hwithin h
  cases n with
  | object nodes ending =>
    obtain ⟨inner, henter, h⟩ := Json.ok_of_bind h
    obtain ⟨j, hj, hinner⟩ := hwithin.members henter
    obtain rfl := Nat.succ.inj hj
    obtain ⟨⟨version, members⟩, hmembers, h⟩ := Json.ok_of_bind h
    obtain ⟨-, -, h⟩ := Json.ok_of_bind h
    cases version with
    | none => cases h
    | some version =>
      obtain ⟨body, hbody, h⟩ := Json.ok_of_bind h
      cases h
      exact readBody_settled (readMembers_depth hinner hmembers) hbody
  | null | bool _ | number _ | text _ | list _ _ | broken _ => cases h

end Envelope

theorem Subscription.yields : Subscription.format.Yields (k + 1) Subscription.WholeSeconds := by
  refine Record.yields nofun ?_
  have hinterval : intervalFormat.Yields k fun i => i.nano.val = 0 :=
    Format.filtered_yields fun _ i hi => by
      rw [← Option.some.inj hi]
      rfl
  simp only [Subscription.record, List.forall_mem_cons]
  refine ⟨?_, ?_, ?_, ?_, ?_, ?_, ?_, ?_, ?_, ?_,
    Member.field_keeps (Format.option_yields hinterval) fun _ _ hv _ => hv, ?_, ?_, ?_, nofun⟩
  all_goals exact Member.other_keeps fun _ _ hs => hs

end TransitPush
