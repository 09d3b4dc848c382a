import GestureActions.Proofs.Faults.Assembly
import GestureActions.Proofs.Silencer.Answers
import GestureActions.Proofs.System.Moments

/-! # When the ringer is silenced

A ring counts from the moment at which the line rings and the switch is on, whichever of
the two came last, until one of them ends. A swipe silences the ringer if a ring has gone on
for as long as the delay, and nothing else does.
-/
namespace GestureActions

namespace Request

theorem count_call? (o : Output) (qs : List Request) :
    (qs.filterMap call?).count (.output o) = qs.count (.output o) := by
  rw [List.count_eq_countP, List.count_eq_countP, List.countP_filterMap]
  refine List.countP_congr fun q _ => ?_
  cases q <;> simp [call?]

end Request

namespace Silencer

theorem count_turn (c : Client) (was is : Bool) (o : Output) : (turn c was is).count (.output o) = 0 := by
  cases was <;> cases is <;> rfl

theorem count_heeds (o : Output) (armed : Bool) (now : Instant) (r : DelayGuard) (y : Reading) :
    (heeds o armed now r y).count (.output o) = if y.isSwipe && (armed && r.allows now) then 1 else 0 := by
  unfold heeds
  cases y.isSwipe with
  | false => rfl
  | true => cases armed && r.allows now <;> simp

end Silencer

namespace World

/-- Only the silencer of the line has a say in the ringer. -/
theorem silences_eq {w : World} (hw : w.Proper) :
    Output.silences w.log.outputs = (w.callsOf .call).count (.output .silence) := by
  have hsays : ∀ e ∈ w.log, e.call = .output .silence → e.party = .call := by
    intro e he ho
    have hp := (hw e he).voice ho
    cases hc : e.party with
    | call => rfl
    | alarm => rw [hc] at hp; cases hp
    | doze => rw [hc] at hp; cases hp
    | flashlight =>
      rw [hc] at hp
      rcases hp with hp | ⟨d, hp⟩ <;> cases hp
    | observer i => rw [hc] at hp; exact hp.elim
  rw [Output.silences, Log.outputs, callsOf, Log.callsOf, List.count_eq_countP, List.count_eq_countP,
    List.countP_filterMap, List.countP_filter, List.countP_map, List.countP_filter]
  refine List.countP_congr fun e he => ?_
  obtain ⟨p, c⟩ := e
  by_cases hc : c = .output .silence
  · subst hc
    have hp : p = .call := hsays _ he rfl
    simp [hp, Call.output?, Call.setting?]
  · cases c with
    | output o =>
      have ho : o ≠ .silence := fun h => hc (congrArg Call.output h)
      simp [Call.output?, ho]
    | _ => simp [Call.output?]

/-- What is in a world with a silencer of the line. -/
theorem Silences.call {c : Client} {g : Signals} {r : DelayGuard} {w : World} (h : w.Silences .call c .silence g r) :
    ∃ l, w.call = some ⟨c, ⟨g.switches .silence, some l⟩⟩ ∧ l.guard = r ∧
      ∀ g', w.isDue g' .call = g'.hush := by
  obtain ⟨s, hs, hk⟩ := h.standing
  obtain ⟨k, hm, rfl⟩ := Option.map_eq_some_iff.mp hs
  obtain ⟨u, hu, rfl⟩ := Option.map_eq_some_iff.mp hm
  obtain ⟨⟨hc, _, ⟨he, l, hl, _⟩, hr⟩, _⟩ := hk
  obtain ⟨d, e, ln⟩ := u
  obtain rfl : d = c := Option.some.inj hc
  dsimp only at he hl
  subst he hl
  refine ⟨l, hu, Option.some.inj hr, fun g' => ?_⟩
  rw [isDue, hm]
  rfl

end World

namespace CallSilencer

variable (start : Instant) (t : Timings) (enabled : Bool)

/-- A silencer of the line with nobody else about. -/
def rig : World := (World.initial start t.dozeInterval t.vibration true).addCall t enabled

theorem rig_eq : rig start t enabled =
    { World.initial start t.dozeInterval t.vibration true with
      poll := ⟨[(⟨1⟩, .withdrawn)], .idle, 2⟩
      call := some ⟨⟨1⟩, .initial t.silenceDelay enabled⟩ } := by
  rw [rig, World.addCall_eq, World.voted_first .call _ rfl rfl]
  rfl

theorem silences_rig : (rig start t enabled).Silences .call ⟨1⟩ .silence (Member.unheard enabled)
    (.ofDelay t.silenceDelay) := by
  rw [rig_eq]
  refine .of_lone nofun (fun q hq => ?_) rfl rfl rfl rfl ⟨⟨rfl, rfl, ⟨rfl, _, rfl, rfl, rfl⟩, rfl⟩, rfl⟩
  cases q with
  | call => exact absurd rfl hq
  | _ => rfl

/-- Whether a ring could be silenced after a history. -/
def rings (h : List Stimulus) : Bool := ((Member.unheard enabled).after h).hush

/-- A reading that comes after a history and is to silence the ringer. -/
def Silencing (h : List Stimulus) (y : Reading) : Prop :=
  y.sensor = .irGesture ∧ y.gesture? = some .swipe ∧
  ((Member.unheard enabled).after h).line = .ringing ∧
  ((Member.unheard enabled).after h).switches .silence = true ∧
  ∃ k, Stimulus.Rose (rings enabled) h k ∧
    min (t.silenceDelay.toNat : Int) Instant.last ≤
      max Instant.first (min ((Stimulus.time start h).toInt - (Stimulus.time start k).toInt) Instant.last)

/-- A silencer of the line after a history. -/
structure After (h : List Stimulus) (r : DelayGuard) (w : World) : Prop where
  silences : w.Silences .call ⟨1⟩ .silence ((Member.unheard enabled).after h) r
  now : w.now = Stimulus.time start h
  delay : r.delay = t.silenceDelay
  armedAt : ∀ k, Stimulus.Rose (rings enabled) h k → r.armedAt = Stimulus.time start k

variable {start t enabled} {h : List Stimulus} {r : DelayGuard} {w : World}

theorem After.isDue (hw : After start t enabled h r w) :
    w.isDue ((Member.unheard enabled).after h) .call = rings enabled h := by
  obtain ⟨_, _, _, hdue⟩ := hw.silences.call
  exact hdue _

theorem After.meet (hw : After start t enabled h r w) (x : Stimulus) :
    ∃ v, w.meet .never x = .done v ∧ World.Answered .call x w v ∧
      After start t enabled (h ++ [x])
        (Silencer.rearm (rings enabled h) (rings enabled (h ++ [x])) w.now r) v := by
  obtain ⟨v, hv, ha, hdue, hs⟩ := hw.silences.meet x
  obtain ⟨_, _, _, hh⟩ := hw.silences.call
  rw [hh, hh, ← Signals.after_snoc] at hs
  refine ⟨v, hv, ha, hs, ?_, ?_, fun k hk => ?_⟩
  · rw [World.now, ha.clock, World.prepare_clock, hw.now, Stimulus.time_snoc]
  · rw [← hw.delay]
    unfold Silencer.rearm
    split <;> rfl
  · -- the guard is rearmed exactly where the moment since which the line rings moves
    obtain ⟨hx, ⟨hon, hk⟩ | ⟨hoff, rfl⟩⟩ := hk.of_snoc
    · rw [hx, hon, Silencer.rearm_self]
      exact hw.armedAt k hk
    · rw [hx, hoff]
      exact hw.now

theorem after_rig : After start t enabled [] (.ofDelay t.silenceDelay) (rig start t enabled) where
  silences := silences_rig start t enabled
  now := by
    rw [rig_eq]
    rfl
  delay := rfl
  armedAt k hk := by
    obtain ⟨x, l, he, _⟩ := hk
    exact absurd he.symm (by simp)

theorem after_run (start : Instant) (t : Timings) (enabled : Bool) (h : List Stimulus) :
    ∃ w r, (rig start t enabled).run .never h = .done w ∧ After start t enabled h r w := by
  induction h using List.reverseRecOn with
  | nil => exact ⟨_, _, rfl, after_rig⟩
  | append_singleton h x ih =>
    obtain ⟨w, r, hw, ha⟩ := ih
    obtain ⟨v, hv, _, hv'⟩ := ha.meet x
    exact ⟨v, _, World.run_snoc hw hv, hv'⟩

/-- The delay has passed if and only if the ring has gone on for as long. -/
theorem After.allows_iff (hw : After start t enabled h r w) {k : List Stimulus}
    (hk : Stimulus.Rose (rings enabled) h k) : r.allows w.now = true ↔
      min (t.silenceDelay.toNat : Int) Instant.last ≤
        max Instant.first (min ((Stimulus.time start h).toInt - (Stimulus.time start k).toInt) Instant.last) := by
  rw [DelayGuard.allows, decide_eq_true_iff, hw.delay, hw.armedAt k hk, hw.now, Instant.since, Instant.toInt_nearest]
  rfl

theorem After.silencing_iff (hw : After start t enabled h r w) (y : Reading) :
    Silencing start t enabled h y ↔ (y.isSwipe && (rings enabled h && r.allows w.now)) = true := by
  rw [Bool.and_eq_true_iff, Bool.and_eq_true_iff, Reading.isSwipe, Bool.and_eq_true_iff, decide_eq_true_iff,
    decide_eq_true_iff]
  constructor
  · rintro ⟨hs, hg, hl, he, k, hk, hd⟩
    refine ⟨⟨hs, hg⟩, ?_, (hw.allows_iff hk).mpr hd⟩
    rw [rings, Signals.hush, hl, he]
    rfl
  · rintro ⟨⟨hs, hg⟩, hr, ha⟩
    obtain ⟨k, hk⟩ := Stimulus.rose_of_on rfl hr
    obtain ⟨hl, he⟩ := Bool.and_eq_true_iff.mp hr
    exact ⟨hs, hg, of_decide_eq_true hl, he, k, hk, (hw.allows_iff hk).mp ha⟩

/-- What is done about the ringer in a step. -/
theorem After.silences_eq (hw : After start t enabled h r w) {x : Stimulus} {v : World}
    (ha : World.Answered .call x w v) (hv : v.Proper) :
    Output.silences v.log.outputs = Output.silences w.log.outputs + (w.reading? .call x).elim 0 fun y =>
      if y.isSwipe && (rings enabled h && r.allows w.now) then 1 else 0 := by
  rw [World.silences_eq hv, World.silences_eq hw.silences.proper, ha.calls, List.count_append, Request.count_call?,
    hw.silences.asked, hw.isDue]
  cases w.reading? .call x with
  | none => exact congrArg (_ + ·) (Silencer.count_turn ..)
  | some y => exact congrArg (_ + ·) (Silencer.count_heeds ..)

/-- In every run the silencer is armed if and only if the line rings with the switch on, and
the delay counts from the time at which that came about last. A reading that reaches the
silencer silences the ringer once if it is a swipe, the silencer is armed and the delay has
passed; nothing else that happens does. -/
theorem run_silences (start : Instant) (t : Timings) (enabled : Bool) (h : List Stimulus) :
    ∃ w s l, (rig start t enabled).run .never h = .done w ∧ w.call = some ⟨⟨1⟩, s⟩ ∧ s.line = some l ∧
      s.isArmed = rings enabled h ∧
      (∀ k, Stimulus.Rose (rings enabled) h k → l.guard.armedAt = Stimulus.time start k) ∧
      ∀ x, ∃ v s' l', w.meet .never x = .done v ∧ v.call = some ⟨⟨1⟩, s'⟩ ∧ s'.line = some l' ∧
        l'.guard.armedAt = (if rings enabled h = false ∧ rings enabled (h ++ [x]) = true then Stimulus.time start h
          else l.guard.armedAt) ∧
        ((∃ y, w.reading? .call x = some y ∧ Silencing start t enabled h y) →
          Output.silences v.log.outputs = Output.silences w.log.outputs + 1) ∧
        ((¬ ∃ y, w.reading? .call x = some y ∧ Silencing start t enabled h y) →
          Output.silences v.log.outputs = Output.silences w.log.outputs) := by
  obtain ⟨w, r, hw, ha⟩ := after_run start t enabled h
  obtain ⟨l, hcall, rfl, _⟩ := ha.silences.call
  refine ⟨w, _, l, hw, hcall, rfl, ?_, ha.armedAt, fun x => ?_⟩
  · have harmed := ha.silences.isArmed
    rw [ha.isDue, World.isArmed, World.member?, hcall] at harmed
    exact harmed
  · obtain ⟨v, hv, hanswered, hnext⟩ := ha.meet x
    obtain ⟨l', hcall', hguard, _⟩ := hnext.silences.call
    have hsilences := ha.silences_eq hanswered hnext.silences.proper
    refine ⟨v, _, l', hv, hcall', rfl, ?_, ?_, ?_⟩
    · rw [hguard, ← ha.now]
      cases rings enabled h <;> cases rings enabled (h ++ [x]) <;> rfl
    · rintro ⟨y, hy, hs⟩
      rw [hsilences, hy, Option.elim_some, if_pos ((ha.silencing_iff y).mp hs)]
    · intro hno
      rw [hsilences]
      cases hy : w.reading? .call x with
      | none => rfl
      | some y =>
        rw [Option.elim_some, if_neg fun hs => hno ⟨y, hy, (ha.silencing_iff y).mpr hs⟩]
        rfl

example : ((rig 0 .byDefault true).run .never
    [.event (.callState .ringing), .clock 500, .delivery (.ofCode Gesture.swipe.code) .call]).state.callsOf .call =
      [.register .irGesture, .readClock, .readClock, .output .silence] := by decide

end CallSilencer

end GestureActions
