import GestureActions.Proofs.Silencer.Ringing

/-! # The two silencers are the same machine

What a ringing line is to the one silencer, a ringing alarm is to the other. Told of the
same things under these names, they stay in step: they ask the same of the hub and of the
poll, and where one silences the ringer the other snoozes the alarm.
-/
namespace GestureActions

/-- Something that happens to the silencer of alarms: the alarm is turned on or off, or
whatever can happen to a world. -/
inductive AlarmStep
  | turned (ringing : Bool)
  | met (x : Stimulus)
  deriving DecidableEq, Repr

/-- The broadcast that turns the alarm as well. -/
def AlarmStep.stimulus : AlarmStep → Stimulus
  | turned true => .event (.alarm AlarmAction.alert.action)
  | turned false => .event (.alarm AlarmAction.dismiss.action)
  | met x => x

theorem AlarmAction.ofAction?_action (a : AlarmAction) : ofAction? a.action = some a := by
  cases a <;> decide

namespace World

def take (y : AlarmStep) (w : World) : Outcome World :=
  match y with
  | .turned ringing => w.alarmTurned .never ringing
  | .met x => w.meet .never x

def takeAll : List AlarmStep → World → Outcome World := Outcome.each take

theorem take_eq (y : AlarmStep) (w : World) : w.take y = w.meet .never y.stimulus := by
  have hbroadcast : ∀ a : AlarmAction,
      w.meet .never (.event (.alarm a.action)) = w.alarmTurned .never a.isRinging := by
    intro a
    simp only [meet, receive, alarmBroadcast, AlarmAction.ofAction?_action]
  cases y with
  | turned ringing =>
    cases ringing with
    | true => exact (hbroadcast .alert).symm
    | false => exact (hbroadcast .dismiss).symm
  | met x => rfl

theorem takeAll_snoc {l : List AlarmStep} {y : AlarmStep} {w u v : World} (hu : w.takeAll l = .done u)
    (hv : u.take y = .done v) : w.takeAll (l ++ [y]) = .done v := by
  rw [takeAll, Outcome.each_append, ← takeAll, hu]
  exact (Outcome.each_singleton ..).trans hv

/-- A broadcast that means nothing passes the alarm by. -/
theorem take_aside {a : String} (ha : AlarmAction.ofAction? a = none) (w : World) :
    w.take (.met (.event (.alarm a))) = .done w := by
  simp only [take, World.meet, receive, alarmBroadcast, ha]

end World

/-- What happens to the silencer of the line, beside what is to happen to that of alarms. -/
inductive Counterpart : Stimulus → AlarmStep → Prop
  | turned (l : CallState) : Counterpart (.event (.callState l)) (.turned (l = .ringing))
  | broadcast (l : CallState) (a : AlarmAction) (h : a.isRinging = (l = .ringing : Bool)) :
      Counterpart (.event (.callState l)) (.met (.event (.alarm a.action)))
  | preference (k : String) (v : Bool) : Counterpart (.event (.preference k v)) (.met (.event (.preference k v)))
  | emission (r : Reading) : Counterpart (.emission r) (.met (.emission r))
  | delivery (r : Reading) : Counterpart (.delivery r .call) (.met (.delivery r .alarm))
  | clock (t : Instant) : Counterpart (.clock t) (.met (.clock t))

/-- Two histories that go together step by step; broadcasts that mean nothing may come in
between at the alarm. -/
inductive Counterparts : List Stimulus → List AlarmStep → Prop
  | nil : Counterparts [] []
  | snoc {h : List Stimulus} {h' : List AlarmStep} {x : Stimulus} {y : AlarmStep} (hh : Counterparts h h')
      (hx : Counterpart x y) : Counterparts (h ++ [x]) (h' ++ [y])
  | aside {h : List Stimulus} {h' : List AlarmStep} {a : String} (hh : Counterparts h h')
      (ha : AlarmAction.ofAction? a = none) : Counterparts h (h' ++ [.met (.event (.alarm a))])

/-- Silencing the ringer for snoozing the alarm, and the other way round. -/
def Output.twin (o : Output) : Output :=
  if o = .silence then AlarmSilencer.voice else if o = AlarmSilencer.voice then .silence else o

def Call.twin : Call → Call
  | output o => output o.twin
  | c => c

namespace Request

def twin : Request → Request
  | output o => output o.twin
  | q => q

theorem call?_twin (q : Request) : q.twin.call? = q.call?.map Call.twin := by
  cases q <;> rfl

theorem hears_twin (t : Sensor) (held : Bool) (q : Request) : hears t held q.twin = hears t held q := by
  cases q <;> rfl

end Request

/-- Signals of an alarm and of a line that say the same to their silencers. -/
structure Signals.Agree (g g' : Signals) : Prop where
  ringing : g'.alarm = (g.line = .ringing : Bool)
  switch : g'.switches .silence = g.switches .silence

namespace Signals

variable {g g' : Signals}

theorem Agree.due (h : g.Agree g') : g'.snooze = g.hush := by
  rw [snooze, hush, h.ringing, h.switch]

theorem Agree.heard (h : g.Agree g') {x : Stimulus} {y : AlarmStep} (hx : Counterpart x y) :
    (x.message?.elim g g.heard).Agree (y.stimulus.message?.elim g' g'.heard) := by
  cases hx with
  | turned l => cases l <;> exact ⟨rfl, h.switch⟩
  | broadcast l a ha =>
    simp only [AlarmStep.stimulus, Stimulus.message?, AlarmAction.ofAction?_action]
    exact ⟨ha, h.switch⟩
  | preference k v =>
    cases hk : Preference.ofKey? k with
    | none =>
      simp only [AlarmStep.stimulus, Stimulus.message?, hk]
      exact h
    | some q =>
      simp only [AlarmStep.stimulus, Stimulus.message?, hk]
      exact ⟨h.ringing, congrArg (if Preference.silence = q then v else ·) h.switch⟩
  | emission r => exact h
  | delivery r => exact h
  | clock t => exact h

end Signals

namespace Counterpart

variable {x : Stimulus} {y : AlarmStep}

theorem time? (h : Counterpart x y) : y.stimulus.time? = x.time? := by
  cases h with
  | turned l => cases l <;> rfl
  | _ => rfl

theorem reading? (h : Counterpart x y) (hears : Sensor → Bool) :
    y.stimulus.reading? .alarm hears = x.reading? .call hears := by
  cases h with
  | turned l => cases l <;> rfl
  | _ => rfl

end Counterpart

namespace Silencer

theorem twin_turn (c : Client) (was is : Bool) : (turn c was is).map Request.twin = turn c was is := by
  cases was <;> cases is <;> rfl

theorem twin_heeds (armed : Bool) (now : Instant) (r : DelayGuard) (y : Reading) :
    (heeds .silence armed now r y).map Request.twin = heeds AlarmSilencer.voice armed now r y := by
  unfold heeds
  cases y.isSwipe with
  | false => rfl
  | true => cases armed && r.allows now <;> rfl

end Silencer

namespace World

/-- What is in a world with a silencer of alarms. -/
theorem Silences.alarm {c : Client} {g : Signals} {r : DelayGuard} {w : World}
    (h : w.Silences .alarm c AlarmSilencer.voice g r) :
    ∃ d, w.alarm = some ⟨c, ⟨g.switches .silence, some d⟩⟩ ∧ d.core = r ∧
      ∀ g', w.isDue g' .alarm = g'.snooze := by
  obtain ⟨s, hs, hk⟩ := h.standing
  obtain ⟨k, hm, rfl⟩ := Option.map_eq_some_iff.mp hs
  obtain ⟨u, hu, rfl⟩ := Option.map_eq_some_iff.mp hm
  obtain ⟨⟨hc, _, ⟨he, d, hd, _⟩, hr⟩, _⟩ := hk
  obtain ⟨d', e, duty⟩ := u
  obtain rfl : d' = c := Option.some.inj hc
  dsimp only at he hd
  subst he hd
  refine ⟨d, hu, Option.some.inj hr, fun g' => ?_⟩
  rw [isDue, hm]
  rfl

/-- A silencer votes for a swipe while it is armed, and for nothing while it is not. -/
theorem Silences.vote? {p : Party} {c : Client} {o : Output} {g : Signals} {r : DelayGuard} {w : World}
    (h : w.Silences p c o g r) : w.poll.vote? c = some ((AlarmSilencer.stake c).vote (w.isDue g p)) := by
  obtain ⟨s, hs, hk⟩ := h.standing
  obtain ⟨k, hm, rfl⟩ := Option.map_eq_some_iff.mp hs
  have hv : k.client?.bind w.poll.vote? = k.stake.map (·.vote k.isArmed) := hk.vote
  have hstake : k.stake = some (AlarmSilencer.stake c) := by
    obtain ⟨hc, ho, _⟩ := hk.member
    cases k with
    | observer x => cases ho
    | alarm d s => rw [← Option.some.inj hc]; rfl
    | call d s => rw [← Option.some.inj hc]; rfl
  rw [hk.member.client, hstake, hk.member.follows.isArmed] at hv
  rw [isDue_of_standing hs]
  exact hv

/-- A world with a silencer of the line and one with a silencer of alarms that are in step. -/
structure Twins (g g' : Signals) (r : DelayGuard) (w w' : World) : Prop where
  call : w.Silences .call ⟨1⟩ .silence g r
  alarm : w'.Silences .alarm ⟨1⟩ AlarmSilencer.voice g' r
  agree : g.Agree g'
  now : w'.now = w.now
  hears : ∀ t, w'.hears .alarm t = w.hears .call t
  calls : w'.callsOf .alarm = (w.callsOf .call).map Call.twin

namespace Twins

variable {g g' : Signals} {r : DelayGuard} {w w' : World} {x : Stimulus} {y : AlarmStep}

theorem isDue (h : Twins g g' r w w') {f f' : Signals} (hf : f.Agree f') : w'.isDue f' .alarm = w.isDue f .call := by
  obtain ⟨_, _, _, hcall⟩ := h.call.call
  obtain ⟨_, _, _, halarm⟩ := h.alarm.alarm
  rw [hcall, halarm, hf.due]

/-- Twins ask the same in each step, but for what they do on a swipe. -/
theorem asked (h : Twins g g' r w w') (hx : Counterpart x y) :
    w'.asked .alarm y.stimulus = (w.asked .call x).map Request.twin := by
  have hreading : w'.reading? .alarm y.stimulus = w.reading? .call x := by
    rw [World.reading?, World.reading?, funext h.hears, hx.reading?]
  rw [h.call.asked, h.alarm.asked, hreading, h.isDue h.agree, h.isDue (h.agree.heard hx), h.now]
  cases w.reading? .call x with
  | none => exact (Silencer.twin_turn ..).symm
  | some y => exact (Silencer.twin_heeds ..).symm

theorem meet (h : Twins g g' r w w') (hx : Counterpart x y) :
    ∃ v v' r', w.meet .never x = .done v ∧ w'.take y = .done v' ∧
      Twins (x.message?.elim g g.heard) (y.stimulus.message?.elim g' g'.heard) r' v v' := by
  obtain ⟨v, hv, ha, _, hs⟩ := h.call.meet x
  obtain ⟨v', hv', ha', _, hs'⟩ := h.alarm.meet y.stimulus
  have hasked := h.asked hx
  rw [h.isDue h.agree, h.isDue (h.agree.heard hx), h.now] at hs'
  refine ⟨v, v', _, hv, (w'.take_eq y).trans hv', hs, hs', h.agree.heard hx, ?_, fun t => ?_, ?_⟩
  · rw [World.now, World.now, ha.clock, ha'.clock, prepare_clock, prepare_clock, hx.time?, h.now]
  · rw [ha.hears, ha'.hears, hasked, h.hears, List.foldl_map]
    congr 1
    funext held q
    exact Request.hears_twin t held q
  · rw [ha.calls, ha'.calls, hasked, h.calls, List.map_append, List.filterMap_map, List.map_filterMap]
    congr 2
    exact funext Request.call?_twin

end Twins

end World

namespace AlarmSilencer

variable (start : Instant) (t : Timings) (enabled : Bool)

/-- A silencer of alarms with nobody else about. -/
def rig : World := (World.initial start t.dozeInterval t.vibration true).addAlarm t enabled

theorem rig_eq : rig start t enabled =
    { World.initial start t.dozeInterval t.vibration true with
      poll := ⟨[(⟨1⟩, .withdrawn)], .idle, 2⟩
      alarm := some ⟨⟨1⟩, initial t.silenceDelay enabled⟩ } := by
  rw [rig, World.addAlarm_eq, World.voted_first .alarm _ rfl rfl]
  rfl

theorem silences_rig : (rig start t enabled).Silences .alarm ⟨1⟩ voice (Member.unheard enabled)
    (.ofDelay t.silenceDelay) := by
  rw [rig_eq]
  refine .of_lone nofun (fun q hq => ?_) rfl rfl rfl rfl ⟨⟨rfl, rfl, Sentry.heeds_initial _ _, rfl⟩, rfl⟩
  cases q with
  | alarm => exact absurd rfl hq
  | _ => rfl

end AlarmSilencer

namespace Silencer

variable (start : Instant) (t : Timings) (enabled : Bool)

theorem twins_rig : World.Twins (Member.unheard enabled) (Member.unheard enabled) (.ofDelay t.silenceDelay)
    (CallSilencer.rig start t enabled) (AlarmSilencer.rig start t enabled) where
  call := CallSilencer.silences_rig start t enabled
  alarm := AlarmSilencer.silences_rig start t enabled
  agree := ⟨rfl, rfl⟩
  now := by
    rw [CallSilencer.rig_eq, AlarmSilencer.rig_eq]
    rfl
  hears _ := by
    rw [CallSilencer.rig_eq, AlarmSilencer.rig_eq]
    rfl
  calls := by
    rw [CallSilencer.rig_eq, AlarmSilencer.rig_eq]
    rfl

theorem twins_run {h : List Stimulus} {h' : List AlarmStep} (hh : Counterparts h h') :
    ∃ w w' g g' r, (CallSilencer.rig start t enabled).run .never h = .done w ∧
      (AlarmSilencer.rig start t enabled).takeAll h' = .done w' ∧ World.Twins g g' r w w' := by
  -- a broadcast that means nothing moves neither side, so the two histories need not be of one length
  induction hh with
  | nil => exact ⟨_, _, _, _, _, rfl, rfl, twins_rig start t enabled⟩
  | snoc _ hx ih =>
    obtain ⟨w, w', g, g', r, hw, hw', htwins⟩ := ih
    obtain ⟨v, v', r', hv, hv', htwins'⟩ := htwins.meet hx
    exact ⟨v, v', _, _, r', World.run_snoc hw hv, World.takeAll_snoc hw' hv', htwins'⟩
  | aside _ ha ih =>
    obtain ⟨w, w', g, g', r, hw, hw', htwins⟩ := ih
    exact ⟨w, w', g, g', r, hw, World.takeAll_snoc hw' (World.take_aside ha w'), htwins⟩

/-- A silencer of the line and one of alarms, told of the same things from the same start,
are at any time both armed or both not, with the same switch, delay, vote and registrations,
and have made the same calls; in each further step they ask the same. The one silences the
ringer exactly where the other snoozes the alarm. -/
theorem runs_agree {h : List Stimulus} {h' : List AlarmStep} (hh : Counterparts h h') :
    ∃ w w' s s' l d, (CallSilencer.rig start t enabled).run .never h = .done w ∧
      (AlarmSilencer.rig start t enabled).takeAll h' = .done w' ∧
      w.call = some ⟨⟨1⟩, s⟩ ∧ w'.alarm = some ⟨⟨1⟩, s'⟩ ∧ s.line = some l ∧ s'.duty = some d ∧
      s'.isArmed = s.isArmed ∧ s'.enabled = s.enabled ∧ d.core = l.guard ∧
      w'.poll.vote? ⟨1⟩ = w.poll.vote? ⟨1⟩ ∧
      (∀ f, w'.hears .alarm f = w.hears .call f) ∧
      w'.callsOf .alarm = (w.callsOf .call).map Call.twin ∧
      (∀ x y, Counterpart x y → w'.asked .alarm y.stimulus = (w.asked .call x).map Request.twin) ∧
      ∀ a, AlarmAction.ofAction? a = none → w'.take (.met (.event (.alarm a))) = .done w' := by
  obtain ⟨w, w', g, g', r, hw, hw', htwins⟩ := twins_run start t enabled hh
  obtain ⟨l, hcall, hguard, _⟩ := htwins.call.call
  obtain ⟨d, halarm, hcore, _⟩ := htwins.alarm.alarm
  have hdue := htwins.isDue htwins.agree
  refine ⟨w, w', _, _, l, d, hw, hw', hcall, halarm, rfl, rfl, ?_, htwins.agree.switch, hcore.trans hguard.symm, ?_,
    htwins.hears, htwins.calls, fun x y hx => htwins.asked hx, fun a ha => World.take_aside ha w'⟩
  · have harmed : w'.isArmed .alarm = w.isArmed .call := by
      rw [htwins.call.isArmed, htwins.alarm.isArmed, hdue]
    rw [World.isArmed, World.isArmed, World.member?, World.member?, hcall, halarm] at harmed
    exact harmed
  · rw [htwins.call.vote?, htwins.alarm.vote?, hdue]

/-- A ring and an alarm, a broadcast that means nothing, and a swipe once the delay has passed. -/
theorem runs_agree_swipe :
    let h := [Stimulus.event (.callState .ringing), .clock 500, .delivery (.ofCode Gesture.swipe.code) .call]
    let h' := [AlarmStep.turned true, .met (.event (.alarm "")), .met (.clock 500),
      .met (.delivery (.ofCode Gesture.swipe.code) .alarm)]
    Counterparts h h' ∧
    ∃ w w', (CallSilencer.rig 0 .byDefault true).run .never h = .done w ∧
      (AlarmSilencer.rig 0 .byDefault true).takeAll h' = .done w' ∧
      w'.callsOf .alarm = (w.callsOf .call).map Call.twin := by
  intro h h'
  have hring := Counterparts.nil.snoc (.turned .ringing)
  have hnothing : AlarmAction.ofAction? "" = none := by decide
  have hswipe := ((hring.aside hnothing).snoc (.clock 500)).snoc (.delivery (.ofCode Gesture.swipe.code))
  have hh : Counterparts h h' := hswipe
  obtain ⟨w, w', _, _, _, _, hw, hw', _, _, _, _, _, _, _, _, _, hcalls, _⟩ := runs_agree 0 .byDefault true hh
  exact ⟨hh, w, w', hw, hw', hcalls⟩

end Silencer

end GestureActions
