import GestureActions.Proofs.Service.Signals
import GestureActions.Proofs.System.Alone

/-! # Members that know the signals

The latest signals decide which members are armed, whatever else happened and in whatever
order. As a member's vote goes with its being armed, they decide every vote as well.
-/
namespace GestureActions

/-- Armed if and only if the signal is present and the switch is on, both being as said. -/
def Sentry.Heeds {κ : Type} (present enabled : Bool) (s : Sentry κ) : Prop :=
  s.enabled = enabled ∧ ∃ d, s.duty = some d ∧ d.present = present ∧ d.armed = (present && enabled)

namespace Sentry

variable {κ : Type} {present enabled : Bool} {s : Sentry κ}

theorem heeds_initial (core : κ) (enabled : Bool) : (initial core enabled).Heeds false enabled :=
  ⟨rfl, _, rfl, rfl, rfl⟩

theorem Heeds.isArmed (h : s.Heeds present enabled) : s.isArmed = (present && enabled) := by
  obtain ⟨_, d, hd, _, ha⟩ := h
  rw [Sentry.isArmed, hd]
  exact ha

theorem Heeds.signal (h : s.Heeds present enabled) (r : Routine κ) (now : Instant) (on : Bool) :
    (s.signal r now on).next.Heeds on enabled := by
  obtain ⟨he, d, hd, _, _⟩ := h
  unfold Sentry.signal
  rw [hd]
  refine ⟨he, _, rfl, ?_, ?_⟩
  · exact (Duty.changes_settle r now s.enabled { d with present := on }).present
  · rw [Duty.armed_settle, he]

theorem Heeds.prefer (h : s.Heeds present enabled) (r : Routine κ) (now : Instant) (q : Preference)
    (v : Bool) : (s.prefer r now q v).next.Heeds present (if r.switch = q then v else enabled) := by
  unfold Sentry.prefer
  by_cases hq : q = r.switch
  · obtain ⟨_, d, hd, rfl, ha⟩ := h
    rw [if_pos hq, if_pos hq.symm, hd]
    exact ⟨rfl, _, rfl, (Duty.changes_switched r now v d).present, Duty.armed_switched r now v ha⟩
  · rw [if_neg hq, if_neg (Ne.symm hq)]
    exact h

theorem Heeds.hear (h : s.Heeds present enabled) (r : Routine κ) (now : Instant) (x : Reading) :
    (s.hear r now x).next.Heeds present enabled := by
  obtain ⟨he, d, hd, hp, ha⟩ := h
  unfold Sentry.hear
  rw [hd]
  dsimp only
  split
  · exact ⟨he, _, rfl, hp, ha⟩
  · exact ⟨he, d, hd, hp, ha⟩

/-- A sentry whose signal is the screen follows the screen and its own switch. -/
theorem Heeds.notice {g : Signals} {r : Routine κ} {whenOn : Bool}
    (h : s.Heeds (g.screen = some whenOn) (g.switches r.switch)) (now : Instant) (n : Notice) :
    (s.notice r whenOn now n).next.Heeds ((g.heard (.notice n)).screen = some whenOn)
      ((g.heard (.notice n)).switches r.switch) := by
  cases n with
  | screen on =>
    have hon : decide (some on = some whenOn) = (on == whenOn) := by cases on <;> cases whenOn <;> rfl
    change Heeds (decide (some on = some whenOn)) _ _
    rw [hon]
    exact h.signal r now _
  | preference q v => exact h.prefer r now q v

end Sentry

/-- The ring is taken up if and only if the line rings and the switch is on, both being as said. -/
def CallSilencer.Heeds (line : CallState) (enabled : Bool) (s : CallSilencer) : Prop :=
  s.enabled = enabled ∧ ∃ l, s.line = some l ∧ l.state = line ∧ l.ringing = (line = .ringing && enabled)

namespace CallSilencer

variable {line : CallState} {enabled : Bool} {s : CallSilencer}

theorem Heeds.isArmed (h : s.Heeds line enabled) : s.isArmed = (line = .ringing && enabled) := by
  obtain ⟨_, l, hl, _, ha⟩ := h
  rw [CallSilencer.isArmed, hl]
  exact ha

theorem Heeds.callState (h : s.Heeds line enabled) (c : Client) (now : Instant) (l : CallState) :
    (s.callState c now l).next.Heeds l enabled := by
  obtain ⟨he, d, hd, hl, ha⟩ := h
  obtain ⟨st, ringing, guard⟩ := d
  obtain ⟨e, ln⟩ := s
  dsimp only at he hd hl ha
  subst he hd hl ha
  refine ⟨rfl, ?_⟩
  cases l <;> cases st <;> cases e <;> exact ⟨_, rfl, rfl, rfl⟩

theorem Heeds.prefer (h : s.Heeds line enabled) (c : Client) (now : Instant) (q : Preference) (v : Bool) :
    (s.prefer c now q v).next.Heeds line (if .silence = q then v else enabled) := by
  unfold CallSilencer.prefer
  by_cases hq : q = .silence
  · obtain ⟨he, d, hd, hl, ha⟩ := h
    obtain ⟨st, ringing, guard⟩ := d
    dsimp only at hl ha
    subst hl ha
    rw [if_pos hq, if_pos hq.symm, hd]
    refine ⟨by cases v <;> rfl, ?_⟩
    cases v <;> cases st <;> cases enabled <;> exact ⟨_, rfl, rfl, rfl⟩
  · rw [if_neg hq, if_neg (Ne.symm hq)]
    exact h

end CallSilencer

namespace Member

/-- Whether the signals have a member armed. -/
def due (g : Signals) : Member → Bool
  | observer (.pickup _ _) | observer (.unstow _ _) => g.lift
  | observer (.approach _ _ _) => g.hand
  | observer (.attentive _ _ _ _) => g.presence
  | observer _ => false
  | alarm _ _ => g.snooze
  | call _ _ => g.hush

def ballot (g : Signals) (k : Member) : Option (Client × Vote) :=
  k.stake.map fun b => (b.client, b.vote (k.due g))

/-- A member that knows the signals as far as they concern it. -/
def Follows (g : Signals) : Member → Prop
  | observer (.pickup _ s) => s.Heeds (g.screen = some false) (g.switches .pickUp)
  | observer (.unstow _ s) => s.Heeds (g.screen = some false) (g.switches .pickUp)
  | observer (.approach _ _ s) => s.Heeds (g.screen = some false) (g.switches .approach)
  | observer (.attentive _ _ _ s) => s.Heeds (g.screen = some true) (g.switches .attentive)
  | observer _ => True
  | alarm _ s => s.Heeds g.alarm (g.switches .silence)
  | call _ s => s.Heeds g.line (g.switches .silence)

theorem Follows.isArmed {g : Signals} {k : Member} (h : k.Follows g) : k.isArmed = k.due g := by
  cases k with
  | observer o =>
    cases o with
    | pickup sink s => exact Sentry.Heeds.isArmed h
    | unstow sink s => exact Sentry.Heeds.isArmed h
    | approach c sink s => exact Sentry.Heeds.isArmed h
    | attentive c mode window s => exact Sentry.Heeds.isArmed h
    | _ => rfl
  | alarm c s => exact Sentry.Heeds.isArmed h
  | call c s => exact CallSilencer.Heeds.isArmed h

theorem Follows.react {g : Signals} {k : Member} (h : k.Follows g) (now : Instant) (m : Message) :
    (k.react now m).next.Follows (g.heard m) := by
  cases k with
  | observer o =>
    cases m with
    | notice n =>
      cases o with
      | pickup sink s => exact Sentry.Heeds.notice (r := Pickup.routine sink) h now n
      | unstow sink s => exact Sentry.Heeds.notice (r := Unstow.routine sink) h now n
      | approach c sink s => exact Sentry.Heeds.notice (r := Approach.routine c sink) h now n
      | attentive c mode window s =>
        exact Sentry.Heeds.notice (r := Attentive.routine c mode window) h now n
      | flashlight sink => cases n <;> trivial
      | _ => trivial
    | reading x =>
      cases o with
      | pickup sink s => exact Sentry.Heeds.hear h _ now x
      | unstow sink s => exact Sentry.Heeds.hear h _ now x
      | approach c sink s => exact Sentry.Heeds.hear h _ now x
      | attentive c mode window s => exact Sentry.Heeds.hear h _ now x
      | flashlight sink =>
        simp only [Member.react, Observer.hear]
        split <;> trivial
      | _ => trivial
    | _ => cases o <;> exact h
  | alarm c s =>
    cases m with
    | notice n =>
      cases n with
      | screen on => exact h
      | preference q v => exact Sentry.Heeds.prefer h (AlarmSilencer.routine c) now q v
    | ringing on => exact Sentry.Heeds.signal h _ now on
    | line l => exact h
    | reading x => exact Sentry.Heeds.hear h _ now x
  | call c s =>
    cases m with
    | notice n =>
      cases n with
      | screen on => exact h
      | preference q v => exact CallSilencer.Heeds.prefer h c now q v
    | ringing on => exact h
    | line l => exact CallSilencer.Heeds.callState h c now l
    | reading x =>
      change (s.hear now x).next.Heeds _ _
      rw [CallSilencer.next_hear]
      exact h

theorem fixed_ballot (g : Signals) : Fixed (ballot g) :=
  ⟨fun _ _ _ => rfl, fun _ _ _ => rfl, fun _ _ _ _ => rfl, fun _ _ _ _ _ => rfl, fun _ _ _ => rfl, fun _ _ _ => rfl⟩

end Member

/-- A standing whose member knows the signals and whose vote goes with its being armed. -/
structure Standing.Follows (g : Signals) (s : Standing) : Prop where
  member : s.member.Follows g
  vote : s.vote = s.member.stake.map (·.vote s.member.isArmed)

namespace Standing

theorem Follows.told {g : Signals} {s : Standing} (h : s.Follows g) (now : Instant) (m : Message) :
    (s.told now m).Follows (g.heard m) := by
  refine ⟨h.member.react now m, ?_⟩
  change List.foldl _ s.vote _ = Option.map _ (s.member.react now m).next.stake
  rw [Member.votes_react, Member.fixed_stake.react, h.vote, Stake.cast]
  by_cases ha : (s.member.react now m).next.isArmed = s.member.isArmed
  · rw [if_pos ha, List.foldl_nil]
    change _ = Option.map (fun b : Stake => b.vote (s.member.react now m).next.isArmed) _
    rw [ha]
  · rw [if_neg ha]
    cases s.member.stake <;> rfl

/-- Whatever gets through to a member, it knows the signals; what does not says nothing
of them. -/
theorem Follows.met {g : Signals} {s : Standing} (h : s.Follows g) (now : Instant) (p : Party)
    (x : Stimulus) : (s.met now p x).Follows (x.message?.elim g g.heard) := by
  unfold Standing.met
  cases hm : x.message? with
  | none => exact h
  | some m =>
    dsimp only
    split
    · exact h.told now m
    · rename_i hr
      cases x with
      | event e => exact absurd rfl hr
      | emission r => cases hm; exact h
      | delivery r q => cases hm; exact h
      | clock t => cases hm

end Standing

namespace World

def ballot (g : Signals) (p : Party) (w : World) : Option (Client × Vote) :=
  (w.standing p).bind (·.member.ballot g)

/-- An orderly world in which everyone knows the signals. -/
structure Follows (g : Signals) (w : World) : Prop where
  orderly : w.Orderly
  inStep : w.InStep
  standing : ∀ p s, w.standing p = some s → s.Follows g

/-- Two worlds with the same voters, and the same votes of everyone else. -/
structure SameVoters (w v : World) : Prop where
  ballot : ∀ g p, v.ballot g p = w.ballot g p
  stranger : ∀ c, (∀ p, w.clientOf p ≠ some c) → v.poll.vote? c = w.poll.vote? c

theorem clientOf_eq_ballot (g : Signals) (p : Party) (w : World) :
    w.clientOf p = (w.ballot g p).map (·.1) := by
  unfold clientOf ballot
  cases w.standing p with
  | none => rfl
  | some s =>
    simp only [Option.bind_some, Member.client?, Member.ballot, Option.map_map]
    rfl

theorem SameVoters.trans {w v u : World} (h : SameVoters w v) (k : SameVoters v u) : SameVoters w u := by
  refine ⟨fun g p => (k.ballot g p).trans (h.ballot g p), fun c hc => ?_⟩
  rw [k.stranger c, h.stranger c hc]
  intro p hp
  refine hc p ?_
  rw [clientOf_eq_ballot ⟨none, false, .idle, fun _ => false⟩, h.ballot] at hp
  rwa [clientOf_eq_ballot]

theorem Follows.vote? {g : Signals} {w : World} (h : w.Follows g) {p : Party} {c : Client} {v : Vote}
    (hp : w.ballot g p = some (c, v)) : w.poll.vote? c = some v := by
  obtain ⟨s, hs, hballot⟩ := Option.bind_eq_some_iff.mp hp
  obtain ⟨k, _, rfl⟩ := Option.map_eq_some_iff.mp hs
  obtain ⟨b, hb, he⟩ := Option.map_eq_some_iff.mp hballot
  obtain ⟨rfl, rfl⟩ := Prod.mk.inj he
  have hv := (h.standing p _ hs).vote
  rw [(h.standing p _ hs).member.isArmed] at hv
  dsimp only at hb hv
  rw [Member.client?, hb] at hv
  exact hv

theorem Follows.meet {g : Signals} {w : World} (h : w.Follows g) (x : Stimulus) :
    ∃ v, w.meet .never x = .done v ∧ v.Follows (x.message?.elim g g.heard) ∧ SameVoters w v := by
  obtain ⟨v, hv, hm⟩ := meet_never h.orderly x
  refine ⟨v, hv, ⟨hm.orderly, hm.inStep h.inStep, fun p s hs => ?_⟩, fun g' p => ?_, hm.stranger⟩
  · rw [hm.standing] at hs
    obtain ⟨t, ht, rfl⟩ := Option.map_eq_some_iff.mp hs
    exact (h.standing p t ht).met w.now p x
  · rw [World.ballot, hm.standing, World.ballot]
    cases w.standing p with
    | none => rfl
    | some s => exact s.fixed_met (Member.fixed_ballot g') w.now p x

/-- After any history everyone knows the latest signals. -/
theorem Follows.run {g : Signals} {w : World} (h : w.Follows g) (l : List Stimulus) :
    ∃ v, w.run .never l = .done v ∧ v.Follows (g.after l) ∧ SameVoters w v := by
  induction l using List.reverseRecOn with
  | nil => exact ⟨w, rfl, h, fun _ _ => rfl, fun _ _ => rfl⟩
  | append_singleton l x ih =>
    obtain ⟨u, hu, hf, hs⟩ := ih
    obtain ⟨v, hv, hf', hs'⟩ := hf.meet x
    refine ⟨v, run_snoc hu hv, ?_, hs.trans hs'⟩
    rwa [Signals.after_snoc]

end World

end GestureActions
