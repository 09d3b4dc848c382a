import GestureActions.Proofs.Attentive.Session
import GestureActions.Proofs.Service.Following

/-! # What a silencer asks

The silencer of alarms and the silencer of the line are told of different signals and keep
them differently. What they ask, and since when they count their delay, follows in one and
the same way from whether they are to be armed before and after a message.
-/
namespace GestureActions

namespace Silencer

/-- What a silencer asks on being armed or disarmed. -/
def turn (c : Client) (was is : Bool) : List Request :=
  match was, is with
  | false, true => [.register .irGesture, .vote c (.forGestures (.of .swipe)), .readClock]
  | true, false => [.unregister .irGesture, .vote c (.forGestures .empty)]
  | _, _ => []

/-- What a silencer asks on a reading; `o` is what it does on a swipe that the delay lets
through. -/
def heeds (o : Output) (armed : Bool) (now : Instant) (r : DelayGuard) (x : Reading) : List Request :=
  if x.isSwipe then .readClock :: (if armed && r.allows now then [.output o] else []) else []

/-- What a silencer asks on a message, given whether it was armed before and is now. -/
def asks (c : Client) (o : Output) (was is : Bool) (now : Instant) (r : DelayGuard) : Message → List Request
  | .reading x => heeds o is now r x
  | _ => turn c was is

/-- The delay counts from when the silencer was armed. -/
def rearm (was is : Bool) (now : Instant) (r : DelayGuard) : DelayGuard := if is && !was then r.arm now else r

@[simp] theorem turn_self (c : Client) (armed : Bool) : turn c armed armed = [] := by
  cases armed <;> rfl

@[simp] theorem rearm_self (armed : Bool) (now : Instant) (r : DelayGuard) : rearm armed armed now r = r := by
  cases armed <;> rfl

end Silencer

namespace Member

/-- The delay of a silencer in service. -/
def guard? : Member → Option DelayGuard
  | observer _ => none
  | alarm _ s => s.duty.map (·.core)
  | call _ s => s.line.map (·.guard)

/-- A silencer in service that knows the signals. -/
structure Silences (c : Client) (o : Output) (g : Signals) (r : DelayGuard) (k : Member) : Prop where
  client : k.client? = some c
  voice : k.voice? = some o
  follows : k.Follows g
  guard : k.guard? = some r

variable {c : Client} {o : Output} {g : Signals} {r : DelayGuard}

theorem fixed_client : Fixed client? :=
  ⟨fun _ _ _ => rfl, fun _ _ _ => rfl, fun _ _ _ _ => rfl, fun _ _ _ _ _ => rfl, fun _ _ _ => rfl, fun _ _ _ => rfl⟩

theorem fixed_voice : Fixed voice? :=
  ⟨fun _ _ _ => rfl, fun _ _ _ => rfl, fun _ _ _ _ => rfl, fun _ _ _ _ _ => rfl, fun _ _ _ => rfl, fun _ _ _ => rfl⟩

theorem fixed_due (g : Signals) : Fixed (due g) :=
  ⟨fun _ _ _ => rfl, fun _ _ _ => rfl, fun _ _ _ _ => rfl, fun _ _ _ _ _ => rfl, fun _ _ _ => rfl, fun _ _ _ => rfl⟩

end Member

/-- What the requests of an answer and the delay afterwards are to be. -/
def Reaction.Answers {σ : Type} (guard? : σ → Option DelayGuard) (qs : List Request) (r : DelayGuard)
    (a : Reaction Effect σ) : Prop :=
  a.requests = qs ∧ guard? a.next = some r

namespace AlarmSilencer

variable (c : Client) (now : Instant) (present enabled : Bool) (r : DelayGuard)

/-- A silencer of alarms that is armed if and only if an alarm rings and its switch is on. -/
def settled : Sentry DelayGuard := ⟨enabled, some ⟨present, present && enabled, r⟩⟩

theorem answers_signal (on : Bool) :
    ((settled present enabled r).signal (routine c) now on).Answers (·.duty.map (·.core))
      (Silencer.turn c (present && enabled) (on && enabled))
      (Silencer.rearm (present && enabled) (on && enabled) now r) := by
  cases present <;> cases enabled <;> cases on <;> exact ⟨rfl, rfl⟩

theorem answers_prefer (v : Bool) :
    ((settled present enabled r).prefer (routine c) now .silence v).Answers (·.duty.map (·.core))
      (Silencer.turn c (present && enabled) (present && v))
      (Silencer.rearm (present && enabled) (present && v) now r) := by
  cases present <;> cases enabled <;> cases v <;> exact ⟨rfl, rfl⟩

theorem answers_hear (x : Reading) :
    ((settled present enabled r).hear (routine c) now x).Answers (·.duty.map (·.core))
      (Silencer.asks c voice (present && enabled) (present && enabled) now r (.reading x))
      (Silencer.rearm (present && enabled) (present && enabled) now r) := by
  rw [Silencer.rearm_self, Silencer.asks, Silencer.heeds]
  unfold Sentry.hear settled
  cases harmed : present && enabled with
  | false =>
    -- what it asks ahead of a reading it asks armed or not
    cases hx : x.isSwipe <;> exact ⟨by simp [Reaction.asking, Reaction.requests, routine, hx], rfl⟩
  | true =>
    obtain ⟨rfl, rfl⟩ := Bool.and_eq_true_iff.mp harmed
    refine ⟨?_, rfl⟩
    cases hx : x.isSwipe with
    | false => simp [Reaction.requests, routine, hear, hx]
    | true => cases hr : r.allows now <;> simp [Reaction.requests, routine, hear, Effect.requests, voice, hx, hr]

end AlarmSilencer

namespace CallSilencer

variable (c : Client) (now : Instant) (line : CallState) (enabled : Bool) (r : DelayGuard)

/-- A silencer of the line that is armed if and only if the line rings and its switch is on. -/
def settled : CallSilencer := ⟨enabled, some ⟨line, line = .ringing && enabled, r⟩⟩

theorem answers_callState (l : CallState) :
    ((settled line enabled r).callState c now l).Answers (·.line.map (·.guard))
      (Silencer.turn c (line = .ringing && enabled) (l = .ringing && enabled))
      (Silencer.rearm (line = .ringing && enabled) (l = .ringing && enabled) now r) := by
  cases line <;> cases enabled <;> cases l <;> exact ⟨rfl, rfl⟩

theorem answers_prefer (v : Bool) :
    ((settled line enabled r).prefer c now .silence v).Answers (·.line.map (·.guard))
      (Silencer.turn c (line = .ringing && enabled) (line = .ringing && v))
      (Silencer.rearm (line = .ringing && enabled) (line = .ringing && v) now r) := by
  cases line <;> cases enabled <;> cases v <;> exact ⟨rfl, rfl⟩

theorem answers_hear (x : Reading) :
    ((settled line enabled r).hear now x).Answers (·.line.map (·.guard))
      (Silencer.asks c .silence (line = .ringing && enabled) (line = .ringing && enabled) now r (.reading x))
      (Silencer.rearm (line = .ringing && enabled) (line = .ringing && enabled) now r) := by
  rw [Silencer.rearm_self, Silencer.asks, Silencer.heeds]
  unfold CallSilencer.hear settled
  cases hx : x.isSwipe with
  | false => exact ⟨rfl, rfl⟩
  | true =>
    refine ⟨?_, rfl⟩
    cases enabled with
    | false => simp [Reaction.requests]
    | true => cases line <;> cases hr : r.allows now <;> simp [Reaction.requests, Effect.requests, hr]

end CallSilencer

namespace Member

variable {c : Client} {o : Output} {g : Signals} {r : DelayGuard}

/-- A message that a silencer passes over leaves it as it is. -/
theorem answers_still {k : Member} {now : Instant} {m : Message} (hk : k.react now m = .still k)
    (hr : k.guard? = some r) {was is : Bool} (hm : Silencer.asks c o was was now r m = []) (hi : is = was) :
    (k.react now m).Answers guard? (Silencer.asks c o was is now r m) (Silencer.rearm was is now r) := by
  rw [hk, hi, hm, Silencer.rearm_self]
  exact ⟨rfl, hr⟩

theorem switches_heard_of_ne {q : Preference} (hq : q ≠ .silence) (v : Bool) (g : Signals) :
    (g.heard (.notice (.preference q v))).switches .silence = g.switches .silence := if_neg (Ne.symm hq)

/-- A silencer in service that knows the signals asks what becoming armed or disarmed takes,
and counts its delay from when it was armed. -/
theorem Silences.answers {k : Member} (h : k.Silences c o g r) (now : Instant) (m : Message) :
    (k.react now m).Answers guard? (Silencer.asks c o (k.due g) (k.due (g.heard m)) now r m)
      (Silencer.rearm (k.due g) (k.due (g.heard m)) now r) := by
  obtain ⟨hc, ho, hf, hr⟩ := h
  cases k with
  | observer x => cases ho
  | alarm d s =>
    obtain rfl : d = c := Option.some.inj hc
    obtain rfl : AlarmSilencer.voice = o := Option.some.inj ho
    obtain ⟨e, duty⟩ := s
    obtain ⟨he, ⟨present, armed, core⟩, hd, hp, ha⟩ := hf
    dsimp only at he hd hp ha
    subst he hd hp ha
    obtain rfl : core = r := Option.some.inj hr
    cases m with
    | notice n =>
      cases n with
      | screen on => exact answers_still rfl rfl (Silencer.turn_self d _) rfl
      | preference q v =>
        by_cases hq : q = .silence
        · subst hq
          exact AlarmSilencer.answers_prefer d now g.alarm (g.switches .silence) core v
        · have hdue := congrArg (g.alarm && ·) (switches_heard_of_ne hq v g)
          refine answers_still ?_ rfl (Silencer.turn_self d _) hdue
          cases q <;> first | rfl | exact absurd rfl hq
    | ringing on => exact AlarmSilencer.answers_signal d now g.alarm (g.switches .silence) core on
    | line l => exact answers_still rfl rfl (Silencer.turn_self d _) rfl
    | reading x => exact AlarmSilencer.answers_hear d now g.alarm (g.switches .silence) core x
  | call d s =>
    obtain rfl : d = c := Option.some.inj hc
    obtain rfl : Output.silence = o := Option.some.inj ho
    obtain ⟨e, ln⟩ := s
    obtain ⟨he, ⟨state, ringing, guard⟩, hd, hp, ha⟩ := hf
    dsimp only at he hd hp ha
    subst he hd hp ha
    obtain rfl : guard = r := Option.some.inj hr
    cases m with
    | notice n =>
      cases n with
      | screen on => exact answers_still rfl rfl (Silencer.turn_self d _) rfl
      | preference q v =>
        by_cases hq : q = .silence
        · subst hq
          exact CallSilencer.answers_prefer d now g.line (g.switches .silence) guard v
        · have hdue := congrArg (g.line = .ringing && ·) (switches_heard_of_ne hq v g)
          refine answers_still ?_ rfl (Silencer.turn_self d _) hdue
          cases q <;> first | rfl | exact absurd rfl hq
    | ringing on => exact answers_still rfl rfl (Silencer.turn_self d _) rfl
    | line l => exact CallSilencer.answers_callState d now g.line (g.switches .silence) guard l
    | reading x => exact CallSilencer.answers_hear d now g.line (g.switches .silence) guard x

theorem Silences.react {k : Member} (h : k.Silences c o g r) (now : Instant) (m : Message) :
    (k.react now m).next.Silences c o (g.heard m) (Silencer.rearm (k.due g) (k.due (g.heard m)) now r) where
  client := (k.client?_react now m).trans h.client
  voice := (fixed_voice.react now m k).trans h.voice
  follows := h.follows.react now m
  guard := (h.answers now m).2

end Member

namespace Standing

/-- What a stimulus makes a member ask. -/
def asked (now : Instant) (p : Party) (x : Stimulus) (s : Standing) : List Request :=
  match x.message? with
  | none => []
  | some m => if s.receives p x then (s.member.react now m).requests else []

theorem hears_met (now : Instant) (p : Party) (x : Stimulus) (s : Standing) (t : Sensor) :
    (s.met now p x).hears t = (s.asked now p x).foldl (Request.hears t) (s.hears t) := by
  unfold met asked
  cases x.message? with
  | none => rfl
  | some m =>
    dsimp only
    split <;> rfl

theorem calls_met (now : Instant) (p : Party) (x : Stimulus) (s : Standing) :
    (s.met now p x).calls = s.calls ++ (s.asked now p x).filterMap Request.call? := by
  unfold met asked
  cases x.message? with
  | none => exact (List.append_nil _).symm
  | some m =>
    dsimp only
    split
    · rfl
    · exact (List.append_nil _).symm

/-- The standing of a silencer in service that knows the signals. -/
structure Silences (c : Client) (o : Output) (g : Signals) (r : DelayGuard) (s : Standing) : Prop where
  member : s.member.Silences c o g r
  vote : s.vote = s.member.stake.map (·.vote s.member.isArmed)

variable {c : Client} {o : Output} {g : Signals} {r : DelayGuard} {s : Standing}

/-- A silencer heeds the readings that get through to it. Whatever else happens, it asks what
becoming armed or disarmed takes. -/
theorem Silences.asked (h : s.Silences c o g r) (now : Instant) (p : Party) (x : Stimulus) :
    s.asked now p x = match x.reading? p s.hears with
      | some y => Silencer.heeds o (s.member.due g) now r y
      | none => Silencer.turn c (s.member.due g) (s.member.due (x.message?.elim g g.heard)) := by
  unfold Standing.asked
  cases x with
  | event e =>
    cases hm : (Stimulus.event e).message? with
    | none => exact (Silencer.turn_self c _).symm
    | some m =>
      refine (h.member.answers now m).1.trans ?_
      cases m with
      | reading y =>
        rcases Stimulus.eq_of_reading hm with he | ⟨q, he⟩ <;> cases he
      | _ => rfl
  | emission y =>
    have ha := (h.member.answers now (.reading y)).1
    by_cases hy : s.hears y.sensor = true
    · simp only [Stimulus.message?, receives, Stimulus.reading?, hy, if_true]
      exact ha
    · simp only [Stimulus.message?, receives, Stimulus.reading?, hy]
      exact (Silencer.turn_self c _).symm
  | delivery y q =>
    have ha := (h.member.answers now (.reading y)).1
    by_cases hq : q = p
    · simp only [Stimulus.message?, receives, Stimulus.reading?, hq, if_true, decide_true]
      exact ha
    · simp only [Stimulus.message?, receives, Stimulus.reading?, hq, if_false, decide_false]
      exact (Silencer.turn_self c _).symm
  | clock t => exact (Silencer.turn_self c _).symm

theorem Silences.met (h : s.Silences c o g r) (now : Instant) (p : Party) (x : Stimulus) :
    (s.met now p x).Silences c o (x.message?.elim g g.heard)
      (Silencer.rearm (s.member.due g) (s.member.due (x.message?.elim g g.heard)) now r) := by
  have hf : (s.met now p x).Follows (x.message?.elim g g.heard) :=
    Follows.met ⟨h.member.follows, h.vote⟩ now p x
  refine ⟨⟨?_, ?_, hf.member, ?_⟩, hf.vote⟩
  · rw [fixed_met Member.fixed_client]
    exact h.member.client
  · rw [fixed_met Member.fixed_voice]
    exact h.member.voice
  · unfold Standing.met
    cases hm : x.message? with
    | none => exact h.member.guard.trans (congrArg some (Silencer.rearm_self _ now r).symm)
    | some m =>
      dsimp only
      split
      · exact (h.member.react now m).guard
      · rename_i hr
        -- what does not get through is a reading and says nothing of the signals
        have hg : g.heard m = g := by
          cases x with
          | event e => exact absurd rfl hr
          | emission y => cases hm; rfl
          | delivery y q => cases hm; rfl
          | clock t => cases hm
        rw [Option.elim_some, hg, Silencer.rearm_self]
        exact h.member.guard

end Standing

namespace World

/-- What a stimulus makes a party ask. -/
def asked (p : Party) (x : Stimulus) (w : World) : List Request := (w.standing p).elim [] (·.asked w.now p x)

/-- An orderly world with a silencer in service that knows the signals. -/
structure Silences (p : Party) (c : Client) (o : Output) (g : Signals) (r : DelayGuard) (w : World) : Prop where
  orderly : w.Orderly
  proper : w.Proper
  standing : ∃ s, w.standing p = some s ∧ s.Silences c o g r

/-- A silencer alone in a world in which nothing has been asked yet. -/
theorem Silences.of_lone {p : Party} {c : Client} {o : Output} {g : Signals} {r : DelayGuard} {w : World} {s : Standing}
    (hp : ∀ i, p ≠ .observer i) (hw : ∀ q, q ≠ p → w.member? q = none) (ho : w.order = [])
    (hr : w.registry.pairs = []) (hl : w.log = []) (hs : w.standing p = some s) (hk : s.Silences c o g r) :
    w.Silences p c o g r := by
  have hclient : ∀ {q d}, w.clientOf q = some d → q = p := by
    intro q d hq
    by_contra hne
    rw [clientOf, World.standing, hw q hne] at hq
    cases hq
  refine ⟨⟨?_, fun i hi => ?_, fun q q' d hq hq' => (hclient hq).trans (hclient hq').symm, ?_⟩, ?_, s, hs, hk⟩
  · rw [ho]
    exact List.nodup_nil
  · rw [World.standing, hw _ (hp i).symm] at hi
    cases hi
  · rw [hr]
    exact List.nodup_nil
  · intro e he
    rw [hl] at he
    exact absurd he List.not_mem_nil

/-- What comes of a stimulus in a world with a silencer. -/
structure Answered (p : Party) (x : Stimulus) (w v : World) : Prop where
  clock : v.clock = (w.prepare x).clock
  hears : ∀ t, v.hears p t = (w.asked p x).foldl (Request.hears t) (w.hears p t)
  calls : v.callsOf p = w.callsOf p ++ (w.asked p x).filterMap Request.call?

variable {p : Party} {c : Client} {o : Output} {g : Signals} {r : DelayGuard} {w : World}

def isDue (g : Signals) (p : Party) (w : World) : Bool := (w.member? p).any (·.due g)

theorem isDue_of_standing {s : Standing} (hs : w.standing p = some s) (g : Signals) : w.isDue g p = s.member.due g := by
  obtain ⟨k, hk, rfl⟩ := Option.map_eq_some_iff.mp hs
  rw [isDue, hk]
  rfl

theorem asked_of_standing {s : Standing} (hs : w.standing p = some s) (x : Stimulus) :
    w.asked p x = s.asked w.now p x := by
  rw [asked, hs]
  rfl

theorem Silences.asked (h : w.Silences p c o g r) (x : Stimulus) :
    w.asked p x = match w.reading? p x with
      | some y => Silencer.heeds o (w.isDue g p) w.now r y
      | none => Silencer.turn c (w.isDue g p) (w.isDue (x.message?.elim g g.heard) p) := by
  obtain ⟨s, hs, hk⟩ := h.standing
  rw [asked_of_standing hs, isDue_of_standing hs, isDue_of_standing hs, reading?, hears_of_standing hs]
  exact hk.asked w.now p x

theorem Silences.meet (h : w.Silences p c o g r) (x : Stimulus) :
    ∃ v, w.meet .never x = .done v ∧ Answered p x w v ∧ (∀ g, v.isDue g p = w.isDue g p) ∧
      v.Silences p c o (x.message?.elim g g.heard)
        (Silencer.rearm (w.isDue g p) (w.isDue (x.message?.elim g g.heard) p) w.now r) := by
  obtain ⟨s, hs, hk⟩ := h.standing
  obtain ⟨v, hv, hm⟩ := meet_never h.orderly x
  have hs' : v.standing p = some (s.met w.now p x) := by rw [hm.standing, hs, Option.map_some]
  refine ⟨v, hv, ⟨hm.clock, fun t => ?_, ?_⟩, fun g => ?_, hm.orderly, hm.proper h.proper, _, hs', ?_⟩
  · have ht := congrFun (hears_of_standing hs') t
    have ht' := congrFun (hears_of_standing hs) t
    rw [ht, ht', asked_of_standing hs, Standing.hears_met]
  · rw [callsOf_of_standing hs', callsOf_of_standing hs, asked_of_standing hs, Standing.calls_met]
  · rw [isDue_of_standing hs', isDue_of_standing hs]
    exact Standing.fixed_met (Member.fixed_due g) w.now p x s
  · rw [isDue_of_standing hs, isDue_of_standing hs]
    exact hk.met w.now p x

theorem Silences.isArmed (h : w.Silences p c o g r) : w.isArmed p = w.isDue g p := by
  obtain ⟨s, hs, hk⟩ := h.standing
  obtain ⟨k, hp, rfl⟩ := Option.map_eq_some_iff.mp hs
  rw [World.isArmed, isDue, hp]
  exact hk.member.follows.isArmed

end World

end GestureActions
