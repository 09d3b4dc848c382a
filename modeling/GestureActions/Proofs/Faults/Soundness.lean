import GestureActions.Proofs.Faults.Loss
import GestureActions.Proofs.Service.Following
import GestureActions.Proofs.System.Balance

/-! # Members that are still in service

A member in service is sound: it is armed as the last signal that got to it and its own switch
say, it holds what goes with that, and so does its vote. A message that is cut short leaves
the member that it got to sound, or lost; it leaves the others alone.
-/
namespace GestureActions

open Request

/-- What a message says of the signal that members of a role follow. -/
def Role.signal? : Role → Message → Option Bool
  | pickup _, .notice (.screen on) | unstow _, .notice (.screen on) | approach _ _, .notice (.screen on) => some !on
  | attentive _ _ _, .notice (.screen on) => some on
  | alarm _, .ringing on => some on
  | call _, .line c => some (c = .ringing)
  | _, _ => none

/-- Whether the signal of a role is there. -/
def Signals.present (g : Signals) : Role → Bool
  | .pickup _ | .unstow _ | .approach _ _ => g.screen = some false
  | .attentive _ _ _ => g.screen = some true
  | .alarm _ => g.alarm
  | .call _ => g.line = .ringing
  | _ => false

theorem Signals.present_heard (g : Signals) (m : Message) (ρ : Role) :
    (g.heard m).present ρ = (ρ.signal? m).getD (g.present ρ) := by
  cases m with
  | notice n =>
    cases n with
    | screen on => cases ρ <;> cases on <;> rfl
    | preference q v => cases ρ <;> rfl
  | _ => cases ρ <;> rfl

theorem Role.signal?_reading (ρ : Role) (r : Reading) : ρ.signal? (.reading r) = none := by
  cases ρ <;> rfl

theorem Member.Follows.isArmed_eq {g : Signals} {k : Member} (h : k.Follows g) :
    k.isArmed = (g.present k.role && k.isEnabled) := by
  have hs : ∀ {κ : Type} {present enabled : Bool} {s : Sentry κ}, s.Heeds present enabled →
      s.isArmed = (present && s.enabled) := fun h => by rw [h.isArmed, h.1]
  cases k with
  | observer o =>
    cases o with
    | pickup sink s => exact hs h
    | unstow sink s => exact hs h
    | approach c sink s => exact hs h
    | attentive c mode window s => exact hs h
    | _ => rfl
  | alarm c s => exact hs h
  | call c s =>
    change s.isArmed = (decide (g.line = .ringing) && s.enabled)
    rw [CallSilencer.Heeds.isArmed h, h.1]

namespace Standing

/-- A standing in service, given whether the signal that its member follows is there. -/
structure Sound (present : Bool) (s : Standing) : Prop where
  balanced : s.Balanced
  follows : ∃ g, s.Follows g ∧ g.present s.member.role = present

/-- Whatever an answer is refused, whoever gives it is lost or goes on in service. -/
theorem Sound.moved {present : Bool} {s : Standing} (hs : s.Sound present) {now : Instant} {m : Message} {k : Member}
    {qs : List Request} (hk : (s.member.react now m).Ends Effect.requests s.member k qs) :
    k.IsLost ∨ (s.moved k qs).Sound ((s.member.role.signal? m).getD present) := by
  obtain ⟨g, hg, hpresent⟩ := hs.follows
  have hr := Member.trades_react now m hs.balanced.fit
  cases hk with
  | lost hduring hd => exact Or.inl ((s.member.founders_react now m).lost hduring)
  | halted hbefore hd =>
    obtain ⟨x, rfl⟩ := Member.eq_reading_of_before hbefore
    have haside : ∀ q ∈ qs, q.IsAside := fun q hq => hr.before q (hd.subset hq)
    refine Or.inr ⟨hs.balanced.moved hs.balanced.fit fun h => ?_, g, ⟨hg.member, ?_⟩, ?_⟩
    · rw [asked_of_isAside haside]
      rfl
    · change List.foldl _ s.vote (votes qs) = _
      rw [votes_of_isAside haside]
      exact hg.vote
    · rw [Role.signal?_reading]
      exact hpresent
  | @given ds hd =>
    have haside : ∀ q ∈ ds, q.IsAside := fun q hq => hr.after q (hd.subset hq)
    have hvotes : votes ((s.member.react now m).before ++ (s.member.react now m).during ++ ds) =
        votes (s.member.react now m).requests := by
      rw [Reaction.requests, votes_append, votes_append _ (List.flatMap _ _), votes_of_isAside haside,
        votes_of_isAside hr.after]
    have htold := hg.told now m
    refine Or.inr ⟨hs.balanced.moved hr.fit fun h => ?_, g.heard m, ⟨htold.member, ?_⟩, ?_⟩
    · rw [hr.asked_eq haside]
      exact hr.trade h
    · change List.foldl _ s.vote (votes _) = _
      rw [hvotes]
      exact htold.vote
    · rw [Signals.present_heard, hpresent.symm]
      exact congrArg (fun ρ => (ρ.signal? m).getD (g.present ρ)) (s.member.role_react now m)

end Standing

/-- A message that has got to a party. -/
structure Delivery where
  party : Party
  message : Message
  deriving DecidableEq, Repr

/-- The last signal that has got to a party of a role; there is none at first. -/
def Role.lastSignal (ρ : Role) (p : Party) (ds : List Delivery) : Bool :=
  (ds.filterMap fun d => if d.party = p then ρ.signal? d.message else none).getLastD false

theorem Role.lastSignal_snoc (ρ : Role) (p : Party) (ds : List Delivery) (d : Delivery) :
    ρ.lastSignal p (ds ++ [d]) =
      if d.party = p then (ρ.signal? d.message).getD (ρ.lastSignal p ds) else ρ.lastSignal p ds := by
  rw [lastSignal, getLastD_filterMap_snoc]
  split <;> rfl

namespace World

variable {w : World} {ds : List Delivery}

/-- A world in which every member is lost or in service, after some messages that got through. -/
structure Weathers (ds : List Delivery) (w : World) : Prop where
  apart : w.Apart
  standing : ∀ p s, w.standing p = some s → s.member.IsLost ∨ s.Sound (s.member.role.lastSignal p ds)

theorem votes_ends_client {k k' : Member} {now : Instant} {m : Message} {qs : List Request}
    (h : (k.react now m).Ends Effect.requests k k' qs) : ∀ u ∈ votes qs, k.client? = some u.1 := by
  intro u hu
  obtain ⟨q, hq, hv⟩ := List.mem_filterMap.mp hu
  exact votes_react_client now m k u (List.mem_filterMap.mpr ⟨q, h.subset q hq, hv⟩)

/-- Telling one member a message moves its standing alone, refused or not. -/
theorem standing_tell (ha : w.Apart) {p : Party} {k : Member} (hk : w.member? p = some k) (refuses : Refusals)
    (m : Message) : ∃ k' qs, (k.react w.now m).Ends Effect.requests k k' qs ∧
      Moved p qs w (w.tell refuses m p).state ∧ (w.tell refuses m p).state.Apart ∧
      ∀ q, (w.tell refuses m p).state.standing q =
        if q = p then (w.standing q).map (·.moved k' qs) else w.standing q := by
  obtain ⟨k', qs, hends, hmoved, hmembers⟩ := tell_ends hk refuses m
  have hclient : k'.client? = k.client? := by
    rw [Member.client?, Member.fixed_stake.congr (Member.role_of_ends hends), Member.client?]
  have hqs := votes_ends_client hends
  have hstanding : ∀ q, (w.tell refuses m p).state.standing q =
      if q = p then (w.standing q).map (·.moved k' qs) else w.standing q := by
    intro q
    split
    · rename_i hq
      subst hq
      exact standing_own hk ((hmembers q).trans (if_pos rfl)) hclient hmoved hqs
    · rename_i hq
      exact standing_other ha hk ((hmembers q).trans (if_neg hq)) hmoved hqs hq
  refine ⟨k', qs, hends, hmoved, apart_of_clientOf (fun q => ?_) ha, hstanding⟩
  rw [clientOf, hstanding]
  split
  · rename_i hq
    subst hq
    rw [clientOf, standing_eq hk]
    exact hclient
  · rfl

theorem tell_none {p : Party} (hk : w.member? p = none) (refuses : Refusals) (m : Message) :
    (w.tell refuses m p).state = w := by
  rw [tell, hk]
  rfl

/-- What a message comes to, cut short or not, leaves every member lost or in service. -/
theorem Weathers.tell (h : w.Weathers ds) (refuses : Refusals) (m : Message) (p : Party) :
    (w.tell refuses m p).state.Weathers (ds ++ [⟨p, m⟩]) := by
  have hothers : ∀ q s, q ≠ p → w.standing q = some s →
      s.member.IsLost ∨ s.Sound (s.member.role.lastSignal q (ds ++ [⟨p, m⟩])) := by
    intro q s hq hs
    rw [Role.lastSignal_snoc, if_neg (Ne.symm hq)]
    exact h.standing q s hs
  cases hk : w.member? p with
  | none =>
    rw [tell_none hk]
    refine ⟨h.apart, fun q s hs => hothers q s ?_ hs⟩
    rintro rfl
    rw [World.standing, hk] at hs
    cases hs
  | some k =>
    obtain ⟨k', qs, hends, _, hapart, hstanding⟩ := standing_tell h.apart hk refuses m
    refine ⟨hapart, fun q s hs => ?_⟩
    rw [hstanding] at hs
    by_cases hq : q = p
    · subst hq
      rw [if_pos rfl, standing_eq hk] at hs
      cases hs
      have hrole : k'.role = k.role := Member.role_of_ends hends
      rcases h.standing q _ (standing_eq hk) with hlost | hsound
      · exact Or.inl (((k.founders_react w.now m).idles hlost).ends hlost hends).1
      · refine (hsound.moved hends).imp_right fun hsound' => ?_
        change Standing.Sound (k'.role.lastSignal q _) _
        rw [Role.lastSignal_snoc, if_pos rfl, hrole]
        exact hsound'
    · rw [if_neg hq] at hs
      exact hothers q s hq hs

end World

end GestureActions
