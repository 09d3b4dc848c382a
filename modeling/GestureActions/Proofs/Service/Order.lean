import GestureActions.Proofs.Service.Isolation
import GestureActions.Proofs.Silencer.Answers

/-! # The order of the observers does not matter

Notices go round the observers in some order, and with it go the order in which they
register and the order in which readings reach them. Whatever the order, the service is in
the same state after every stimulus and has made the same calls to each collaborator that
does something: no two observers ever speak to the same one in the same round.
-/
namespace GestureActions

open Request

namespace Log

/-- The calls made to a collaborator, oldest first. -/
def madeTo (k : Collaborator) (l : Log) : List Call := (l.map (·.call)).filter (Collaborator.ofCall · = k)

theorem madeTo_append (k : Collaborator) (l l' : Log) : madeTo k (l ++ l') = madeTo k l ++ madeTo k l' := by
  rw [madeTo, List.map_append, List.filter_append]
  rfl

end Log

namespace Feature

theorem trace_append (f : Feature) (l l' : Log) : f.trace (l ++ l') = f.trace l ++ f.trace l' := by
  rw [trace, List.map_append, List.filter_append]
  rfl

/-- The feature that has a collaborator to itself. -/
def ofCollaborator? : Collaborator → Option Feature
  | .power => some power
  | .telecom => some ringer
  | .torch | .vibrator => some torch
  | _ => none

theorem owns_of_ofCollaborator? {f : Feature} {call : Call} (h : ofCollaborator? (Collaborator.ofCall call) = some f) :
    f.owns call = true := by
  cases call with
  | power c =>
    cases h
    rfl
  | output o =>
    cases o with
    | broadcast a => cases h
    | _ =>
      cases h
      rfl
  | _ => cases h

/-- What is made to a collaborator is part of what its feature puts out. -/
theorem madeTo_eq {f : Feature} {k : Collaborator} (h : ofCollaborator? k = some f) (l : Log) :
    l.madeTo k = (f.trace l).filter (Collaborator.ofCall · = k) := by
  rw [Log.madeTo, trace, List.filter_filter]
  refine List.filter_congr fun c _ => ?_
  by_cases hc : Collaborator.ofCall c = k
  · have ho : f.owns c = true := owns_of_ofCollaborator? (by rw [hc, h])
    simp [hc, ho]
  · simp [hc]

theorem madeTo_eq_trace {f : Feature} {k : Collaborator} {l : Log}
    (hf : ∀ c, f.owns c = true → Collaborator.ofCall c = k)
    (hl : ∀ e ∈ l, Collaborator.ofCall e.call = k → f.owns e.call = true) : l.madeTo k = f.trace l := by
  rw [Log.madeTo, trace]
  refine List.filter_congr fun c hc => ?_
  obtain ⟨e, he, rfl⟩ := List.mem_map.mp hc
  refine Bool.eq_iff_iff.mpr ?_
  rw [decide_eq_true_iff]
  exact ⟨hl e he, hf e.call⟩

theorem not_owns_of_trace {f : Feature} {l : Log} (h : f.trace l = []) : ∀ e ∈ l, f.owns e.call ≠ true := by
  intro e he
  exact List.filter_eq_nil_iff.mp h e.call (List.mem_map_of_mem he)

theorem ofCall_of_broadcast {f : Feature} (hf : f = snooze ∨ f = pulse) {c : Call} (hc : f.owns c = true) :
    Collaborator.ofCall c = .broadcaster := by
  cases c with
  | output o => rcases hf with rfl | rfl <;> cases o <;> first | rfl | cases hc
  | _ => rcases hf with rfl | rfl <;> cases hc

/-- Broadcasts that are all of one kind are the output of one feature. -/
theorem madeTo_broadcaster {l : Log}
    (hl : ∀ e ∈ l, Collaborator.ofCall e.call = .broadcaster →
      snooze.owns e.call = true ∨ pulse.owns e.call = true)
    (h : pulse.trace l = [] ∨ snooze.trace l = []) :
    l.madeTo .broadcaster = snooze.trace l ++ pulse.trace l := by
  rcases h with h | h
  · have hsole : l.madeTo .broadcaster = snooze.trace l :=
      madeTo_eq_trace (fun _ hc => ofCall_of_broadcast (Or.inl rfl) hc) fun e he hb =>
        (hl e he hb).resolve_right (not_owns_of_trace h e he)
    rw [hsole, h, List.append_nil]
  · have hsole : l.madeTo .broadcaster = pulse.trace l :=
      madeTo_eq_trace (fun _ hc => ofCall_of_broadcast (Or.inr rfl) hc) fun e he hb =>
        (hl e he hb).resolve_left (not_owns_of_trace h e he)
    rw [hsole, h, List.nil_append]

end Feature

namespace World

variable {c : Config} {g g' : Signals} {w v w' v' : World} {x : Stimulus}

theorem log_tell {m : Message} {p : Party} (h : w.tell .never m p = .done v) : w.log <+: v.log := by
  cases hk : w.member? p with
  | none =>
    rw [tell, hk] at h
    cases h
    exact List.prefix_rfl
  | some k =>
    obtain ⟨u, hu, hw, _⟩ := tell_never hk m
    rw [hu] at h
    cases h
    obtain ⟨l, hl, _⟩ := hw.adds
    exact ⟨l, hl.symm⟩

theorem log_each_tell {m : Message} {ps : List Party} (h : Outcome.each (tell .never m) ps w = .done v) :
    w.log <+: v.log := by
  induction ps generalizing w with
  | nil =>
    cases h
    exact List.prefix_rfl
  | cons p ps ih =>
    rw [Outcome.each] at h
    cases hu : w.tell .never m p with
    | done u =>
      rw [hu] at h
      exact (log_tell hu).trans (ih h)
    | refused k u =>
      rw [hu] at h
      cases h

/-- Whatever happens, the log only grows. -/
theorem log_meet (h : w.meet .never x = .done v) : w.log <+: v.log := by
  have hlog : (w.prepare x).log = w.log := by
    unfold prepare
    split <;> rfl
  rw [meet_eq] at h
  rw [← hlog]
  cases hm : x.message? with
  | none =>
    rw [hm] at h
    cases h
    exact List.prefix_rfl
  | some m =>
    rw [hm] at h
    exact log_each_tell h

/-- Two worlds that differ at most in the order of the observers, of the registrations and of
the log. -/
structure Level (w v : World) : Prop where
  clock : v.clock = w.clock
  screen : v.screen = w.screen
  standing : ∀ p, v.standing p = w.standing p
  sinks : v.sinks = w.sinks
  vote : ∀ d, v.poll.vote? d = w.poll.vote? d

theorem Level.now (h : Level w v) : v.now = w.now := congrArg Clock.now h.clock

theorem Level.alike (h : Level w v) (f : Feature) : Alike f w v where
  now _ := h.now
  glimpse p _ := by rw [glimpse, glimpse, h.standing]
  doze _ := ⟨h.screen, congrArg Sinks.doze h.sinks⟩
  flashlight _ := congrArg Sinks.flashlight h.sinks

theorem Level.clientOf (h : Level w v) (p : Party) : v.clientOf p = w.clientOf p := by
  rw [World.clientOf, World.clientOf, h.standing]

theorem Met.clientOf (h : Met x w v) (p : Party) : v.clientOf p = w.clientOf p := by
  rw [World.clientOf, World.clientOf, h.standing]
  cases w.standing p with
  | none => rfl
  | some s => exact s.fixed_met Member.fixed_client w.now p x

theorem standing_vote {p : Party} {d : Client} (hd : w.clientOf p = some d) :
    w.poll.vote? d = (w.standing p).bind (·.vote) := by
  obtain ⟨s, hs, hc⟩ := Option.bind_eq_some_iff.mp hd
  obtain ⟨k, _, rfl⟩ := Option.map_eq_some_iff.mp hs
  rw [hs, Option.bind_some]
  change k.client? = some d at hc
  change _ = k.client?.bind w.poll.vote?
  rw [hc]
  rfl

/-- A stimulus leaves two worlds as they were to each other: no party is told anything else,
and no sink hears of more than one party. -/
theorem Level.meet (hl : Level w v) (h : w.Serves c g) (h' : v.Serves c g') (hw : w.meet .never x = .done w')
    (hm : Met x w w') (hv : v.meet .never x = .done v') (hm' : Met x v v') : Level w' v' := by
  have hstanding : ∀ p, v'.standing p = w'.standing p := by
    intro p
    rw [hm.standing, hm'.standing, hl.standing, hl.now]
  have hpulse := (hl.alike .pulse).meet h h' hw hm hv hm'
  have htorch := (hl.alike .torch).meet h h' hw hm hv hm'
  have hdoze := (hpulse.doze rfl).2
  have hflashlight := htorch.flashlight rfl
  refine ⟨?_, (hpulse.doze rfl).1, hstanding, ?_, fun d => ?_⟩
  · rw [hm.clock, hm'.clock]
    unfold prepare
    split <;> first | exact hl.clock | rfl
  · exact congrArg₂ Sinks.mk hdoze hflashlight
  · by_cases hd : ∃ p, w'.clientOf p = some d
    · obtain ⟨p, hp⟩ := hd
      have hp' : v'.clientOf p = some d := by rw [World.clientOf, hstanding, ← World.clientOf, hp]
      rw [standing_vote hp, standing_vote hp', hstanding]
    · have hstranger : ∀ p, w.clientOf p ≠ some d := fun p hp => hd ⟨p, (hm.clientOf p).trans hp⟩
      have hstranger' : ∀ p, v.clientOf p ≠ some d := fun p hp => hstranger p ((hl.clientOf p).symm.trans hp)
      rw [hm.stranger d hstranger, hm'.stranger d hstranger', hl.vote]

/-- The setting handed on last goes by the votes, in whatever order they are stored. -/
theorem Level.published (hl : Level w v) (hw : w.InStep) (hv : v.InStep) : v.poll.published = w.poll.published := by
  rw [hw.sound.published, hv.sound.published]
  exact Poll.tally_congr hv.sound.nodup hw.sound.nodup hl.vote

theorem Level.member (hl : Level w v) (p : Party) : v.member? p = w.member? p := by
  have hfst : ∀ u : World, (u.standing p).map (·.member) = u.member? p := by
    intro u
    rw [World.standing, Option.map_map]
    exact Option.map_id'
  rw [← hfst, ← hfst, hl.standing]

theorem Level.hears (hl : Level w v) (h : w.Serves c g) (h' : v.Serves c g') (p : Party) (t : Sensor) :
    v.hears p t = w.hears p t := by
  cases hs : w.standing p with
  | none =>
    have hs' : v.standing p = none := (hl.standing p).trans hs
    rw [h.outsider p hs, h'.outsider p hs']
  | some s =>
    have hw := congrFun (hears_of_standing hs) t
    have hv := congrFun (hears_of_standing ((hl.standing p).trans hs)) t
    exact hv.trans hw.symm

theorem Level.registry (hl : Level w v) (h : w.Serves c g) (h' : v.Serves c g') :
    v.registry.pairs.Perm w.registry.pairs := by
  refine (List.perm_ext_iff_of_nodup h'.orderly.nodup h.orderly.nodup).mpr fun ⟨t, p⟩ => ?_
  exact decide_eq_decide.mp (hl.hears h h' p t)

/-- Nobody but a sink or a member has made any calls. -/
theorem Proper.callsOf_eq_nil (hw : w.Proper) {p : Party} (hp : p.IsMember) (hs : w.standing p = none) :
    w.callsOf p = [] := by
  have hnone : w.log.filter (·.party = p) = [] := by
    refine List.filter_eq_nil_iff.mpr fun e he hep => ?_
    obtain rfl : e.party = p := of_decide_eq_true hep
    rcases hw e he with hsink | ⟨hsome, _⟩
    · exact hsink.1 hp
    · rw [hs] at hsome
      cases hsome
  rw [World.callsOf, Log.callsOf, hnone]
  rfl

theorem Level.callsOf (hl : Level w v) (hw : w.Proper) (hv : v.Proper) (p : Party) : v.callsOf p = w.callsOf p := by
  cases hs : w.standing p with
  | some s => rw [callsOf_of_standing hs, callsOf_of_standing ((hl.standing p).trans hs)]
  | none =>
    have hs' : v.standing p = none := (hl.standing p).trans hs
    cases p with
    | doze => exact congrArg (fun s => s.doze.2) hl.sinks
    | flashlight => exact congrArg (fun s => s.flashlight.2) hl.sinks
    | observer i =>
      have hp := Party.isMember_observer i
      rw [hw.callsOf_eq_nil hp hs, hv.callsOf_eq_nil hp hs']
    | alarm => rw [hw.callsOf_eq_nil Party.isMember_alarm hs, hv.callsOf_eq_nil Party.isMember_alarm hs']
    | call => rw [hw.callsOf_eq_nil Party.isMember_call hs, hv.callsOf_eq_nil Party.isMember_call hs']

/-- A swipe is no approaching hand and does nothing for the doze sink. -/
theorem Serves.pulse_of_swipe (h : w.Serves c g) {r : Reading} (hx : x.message? = some (.reading r))
    (hr : r.isSwipe = true) (hv : w.meet .never x = .done v) : v.sinks.doze = w.sinks.doze := by
  obtain ⟨hs, hg⟩ := Bool.and_eq_true_iff.mp hr
  have hsensor : r.sensor = .irGesture := of_decide_eq_true hs
  have hgesture : r.gesture? = some .swipe := of_decide_eq_true hg
  have hnone : w.effectsOf (.reading r) (.observer 4) = [] := by
    refine List.eq_nil_iff_forall_not_mem.mpr fun e he => ?_
    obtain ⟨k, hk, hrole⟩ := h.member (p := .observer 4) rfl
    rw [effectsOf, hk, Option.elim_some] at he
    obtain ⟨o, _, rfl⟩ := Option.map_eq_some_iff.mp hk
    cases o with
    | approach d sink s =>
      obtain ⟨enabled, core, he⟩ := Sentry.mem_after_hear he
      simp [Approach.routine, Approach.isTrigger, hgesture] at he
    | _ => cases hrole
  have hsource : Service.source? .doze (.reading r) = some (.observer 4) := by
    simp only [Service.source?, hsensor]
  rw [h.doze_eq hv, h.filter_effects hx, hsource, Option.elim_some, hnone]
  split <;> rfl

theorem Serves.silences_alarm (h : w.Serves c g) : ∃ r, w.Silences .alarm ⟨4⟩ AlarmSilencer.voice g r := by
  obtain ⟨k, hk, hrole⟩ := h.member (p := .alarm) rfl
  obtain ⟨u, hu, rfl⟩ := Option.map_eq_some_iff.mp hk
  obtain ⟨d, s⟩ := u
  obtain rfl : d = ⟨4⟩ := by
    cases hrole
    rfl
  have hf := h.standing .alarm _ (standing_eq hk)
  obtain ⟨_, b, hb, _⟩ := hf.member
  refine ⟨b.core, h.orderly, h.proper, _, standing_eq hk, ⟨rfl, rfl, hf.member, ?_⟩, hf.vote⟩
  exact congrArg (Option.map (·.core)) hb

theorem message?_of_reading? {p : Party} {y : Reading} (h : w.reading? p x = some y) :
    x.message? = some (.reading y) := by
  cases x with
  | event e => cases h
  | emission r =>
    rw [reading?, Stimulus.reading?] at h
    split at h
    · exact congrArg (some ∘ Message.reading) (Option.some.inj h)
    · cases h
  | delivery r q =>
    rw [reading?, Stimulus.reading?] at h
    split at h
    · exact congrArg (some ∘ Message.reading) (Option.some.inj h)
    · cases h
  | clock t => cases h

/-- An alarm is snoozed at a swipe only. -/
theorem Serves.snooze_of_no_swipe (h : w.Serves c g) (h' : v.Serves c g')
    (hx : ∀ r, x.message? = some (.reading r) → r.isSwipe = false) (hv : w.meet .never x = .done v) :
    Feature.trace .snooze v.log = Feature.trace .snooze w.log := by
  obtain ⟨r, hs⟩ := h.silences_alarm
  obtain ⟨v', hv', hanswered, _⟩ := hs.meet x
  rw [hv] at hv'
  cases hv'
  have hquiet : ((w.asked .alarm x).filterMap Request.call?).filter (Feature.owns .snooze) = [] := by
    rw [hs.asked]
    cases hy : w.reading? .alarm x with
    | none =>
      dsimp only
      generalize w.isDue g .alarm = was
      generalize w.isDue _ .alarm = is
      cases was <;> cases is <;> rfl
    | some y =>
      dsimp only
      rw [Silencer.heeds, hx y (message?_of_reading? hy)]
      rfl
  rw [h.trace_eq, h'.trace_eq, Feature.speaker, hanswered.calls, List.filter_append, hquiet, List.append_nil]

/-- In one round either no pulse is asked for or no alarm is snoozed. -/
theorem Serves.sole_broadcaster (h : w.Serves c g) (h' : v.Serves c g') (hv : w.meet .never x = .done v) :
    Feature.trace .pulse v.log = Feature.trace .pulse w.log ∨
    Feature.trace .snooze v.log = Feature.trace .snooze w.log := by
  by_cases hx : ∃ r, x.message? = some (.reading r) ∧ r.isSwipe = true
  · obtain ⟨r, hx, hr⟩ := hx
    refine Or.inl ?_
    have hdoze := h.pulse_of_swipe hx hr hv
    rw [h.trace_eq, h'.trace_eq]
    exact congrArg (fun d => d.2.filter (Feature.owns .pulse)) hdoze
  · refine Or.inr (h.snooze_of_no_swipe h' (fun r hm => ?_) hv)
    rw [← Bool.not_eq_true]
    exact fun hr => hx ⟨r, hm, hr⟩

theorem Proper.owns_broadcast (hw : w.Proper) {e : Entry} (he : e ∈ w.log)
    (hb : Collaborator.ofCall e.call = .broadcaster) :
    Feature.owns .snooze e.call = true ∨ Feature.owns .pulse e.call = true := by
  cases hc : e.call with
  | output o =>
    have hsays := (hw e he).voice hc
    rw [hc] at hb
    cases o with
    | broadcast a =>
      cases hp : e.party with
      | alarm =>
        rw [hp] at hsays
        cases hsays
        exact Or.inl rfl
      | doze =>
        rw [hp] at hsays
        cases hsays
        exact Or.inr rfl
      | call => rw [hp] at hsays; cases hsays
      | flashlight =>
        rw [hp] at hsays
        rcases hsays with hsays | ⟨d, hsays⟩ <;> cases hsays
      | observer i =>
        rw [hp] at hsays
        exact hsays.elim
    | _ => cases hb
  | _ =>
    rw [hc] at hb
    cases hb

/-- What a stimulus adds to the calls made to the broadcaster. -/
theorem Serves.madeTo_broadcaster_meet (h : w.Serves c g) (h' : v.Serves c g') (hv : w.meet .never x = .done v)
    {l : Log} (hl : v.log = w.log ++ l) : l.madeTo .broadcaster = Feature.trace .snooze l ++ Feature.trace .pulse l := by
  refine Feature.madeTo_broadcaster (fun e he => ?_) ?_
  · have hmem : e ∈ v.log := by
      rw [hl]
      exact List.mem_append_right w.log he
    exact h'.proper.owns_broadcast hmem
  · have hsole := h.sole_broadcaster h' hv
    rw [hl, Feature.trace_append, Feature.trace_append, List.append_right_eq_self, List.append_right_eq_self] at hsole
    exact hsole

/-- Two level worlds in service that have asked the same of the broadcaster. -/
structure Abreast (c : Config) (g : Signals) (w v : World) : Prop where
  left : w.Serves c g
  right : v.Serves c g
  level : Level w v
  broadcaster : v.log.madeTo .broadcaster = w.log.madeTo .broadcaster

theorem Abreast.meet (h : Abreast c g w v) (x : Stimulus) :
    ∃ w' v', w.meet .never x = .done w' ∧ v.meet .never x = .done v' ∧
      Abreast c (x.message?.elim g g.heard) w' v' := by
  obtain ⟨w', hw, hm, hs⟩ := h.left.meet x
  obtain ⟨v', hv, hm', hs'⟩ := h.right.meet x
  have hlevel := h.level.meet h.left h.right hw hm hv hm'
  refine ⟨w', v', hw, hv, hs, hs', hlevel, ?_⟩
  -- alarms and pulses share the broadcaster: their traces do not say how they interleave, but
  -- a single stimulus brings only one of the two
  obtain ⟨l, hl⟩ := log_meet hw
  obtain ⟨l', hl'⟩ := log_meet hv
  have htrace : ∀ f : Feature, f.trace l' = f.trace l := by
    intro f
    have hbefore := (h.level.alike f).trace h.left h.right
    have hafter := (hlevel.alike f).trace hs hs'
    rw [← hl, ← hl', Feature.trace_append, Feature.trace_append, hbefore] at hafter
    exact List.append_cancel_left hafter
  rw [← hl, ← hl', Log.madeTo_append, Log.madeTo_append, h.broadcaster,
    h.left.madeTo_broadcaster_meet hs hw hl.symm, h.right.madeTo_broadcaster_meet hs' hv hl'.symm, htrace, htrace]

theorem Abreast.run (h : Abreast c g w v) (l : List Stimulus) :
    ∃ w' v', w.run .never l = .done w' ∧ v.run .never l = .done v' ∧ Abreast c (g.after l) w' v' := by
  induction l using List.reverseRecOn with
  | nil => exact ⟨w, v, rfl, rfl, h⟩
  | append_singleton l x ih =>
    obtain ⟨u, t, hu, ht, ha⟩ := ih
    obtain ⟨w', v', hw, hv, ha'⟩ := ha.meet x
    refine ⟨w', v', run_snoc hu hw, run_snoc ht hv, ?_⟩
    rwa [Signals.after_snoc]

/-- What worlds abreast have asked of a collaborator that does something. -/
theorem Abreast.madeTo (h : Abreast c g w v) {k : Collaborator}
    (hk : k ∈ [.broadcaster, .power, .telecom, .torch, .vibrator]) : v.log.madeTo k = w.log.madeTo k := by
  have howned : ∀ f, Feature.ofCollaborator? k = some f → v.log.madeTo k = w.log.madeTo k := by
    intro f hf
    rw [Feature.madeTo_eq hf, Feature.madeTo_eq hf, (h.level.alike f).trace h.left h.right]
  simp only [List.mem_cons, List.not_mem_nil, or_false] at hk
  rcases hk with rfl | rfl | rfl | rfl | rfl
  · exact h.broadcaster
  · exact howned .power rfl
  · exact howned .ringer rfl
  · exact howned .torch rfl
  · exact howned .torch rfl

/-- Two worlds that are in the same state, up to the order of the registrations, and that have
made the same calls: each party altogether, and all parties to each collaborator that does
something. -/
structure Coincide (w v : World) : Prop where
  published : v.poll.published = w.poll.published
  setting : v.log.setting = w.log.setting
  vote : ∀ d, v.poll.vote? d = w.poll.vote? d
  member : ∀ p, v.member? p = w.member? p
  doze : v.doze = w.doze
  flashlight : v.flashlight = w.flashlight
  screen : v.screen = w.screen
  clock : v.clock = w.clock
  registrations : v.registry.pairs.Perm w.registry.pairs
  calls : ∀ p, v.callsOf p = w.callsOf p
  madeTo : ∀ k ∈ [Collaborator.broadcaster, .power, .telecom, .torch, .vibrator], v.log.madeTo k = w.log.madeTo k

theorem Abreast.coincide (h : Abreast c g w v) : Coincide w v where
  published := h.level.published h.left.inStep h.right.inStep
  setting := by
    rw [h.left.inStep.setting, h.right.inStep.setting]
    exact h.level.published h.left.inStep h.right.inStep
  vote := h.level.vote
  member := h.level.member
  doze := congrArg (·.doze.1) h.level.sinks
  flashlight := congrArg (·.flashlight.1) h.level.sinks
  screen := h.level.screen
  clock := h.level.clock
  registrations := h.level.registry h.left h.right
  calls := h.level.callsOf h.left.proper h.right.proper
  madeTo _ hk := h.madeTo hk

/-- A world in which notices go round the observers in another order. -/
def inOrder (o : List Nat) (w : World) : World := { w with order := o }

theorem Serves.inOrder (h : w.Serves c g) {o : List Nat} (ho : o.Perm w.order) : (w.inOrder o).Serves c g where
  orderly := ⟨ho.nodup_iff.mpr h.orderly.order, fun i hi => ho.mem_iff.mpr (h.orderly.seated i hi), h.orderly.apart,
    h.orderly.nodup⟩
  inStep := ⟨h.inStep.sound, h.inStep.setting⟩
  standing := h.standing
  cast := h.cast
  balanced := h.balanced
  outsider := h.outsider
  proper := h.proper
  drawer := h.drawer
  screen := h.screen
  doze := h.doze
  flashlight := h.flashlight

theorem Serves.abreast (h : w.Serves c g) {o o' : List Nat} (ho : o.Perm w.order) (ho' : o'.Perm w.order) :
    Abreast c g (w.inOrder o) (w.inOrder o') where
  left := h.inOrder ho
  right := h.inOrder ho'
  level := ⟨rfl, rfl, fun _ => rfl, rfl, fun _ => rfl⟩
  broadcaster := rfl

end World

namespace Service

/-- In whatever two orders notices go round the six observers of the service, after any
history the two services coincide. -/
theorem run_inOrder (c : Config) (p : Preferences) (start : Instant) {o o' : List Nat} (ho : o.Perm (List.range 6))
    (ho' : o'.Perm (List.range 6)) (h : List Stimulus) :
    ∃ w v, ((assemble c p start).inOrder o).run .never h = .done w ∧
      ((assemble c p start).inOrder o').run .never h = .done v ∧ w.Coincide v := by
  have horder : (assemble c p start).order = List.range 6 := by
    rw [assemble_eq]
    rfl
  obtain ⟨w, v, hw, hv, ha⟩ := ((serves_assemble c p start).abreast (horder ▸ ho) (horder ▸ ho')).run h
  exact ⟨w, v, hw, hv, ha.coincide⟩

/-- The order in which the service is assembled, and the opposite one. -/
theorem run_inOrder_reversed :
    List.Perm [0, 1, 2, 3, 4, 5] (List.range 6) ∧ List.Perm [5, 4, 3, 2, 1, 0] (List.range 6) ∧
    ∀ h, ∃ w v, ((assemble .byDefault .byDefault 0).inOrder [0, 1, 2, 3, 4, 5]).run .never h = .done w ∧
      ((assemble .byDefault .byDefault 0).inOrder [5, 4, 3, 2, 1, 0]).run .never h = .done v ∧ w.Coincide v :=
  ⟨by decide, by decide, run_inOrder .byDefault .byDefault 0 (by decide) (by decide)⟩

/-- What the detector is handed in between goes by the order: a screen that goes on takes one
vote away before or after it brings another one. -/
example :
    let pushes o := Log.madeTo .hardware (((assemble .byDefault (.ofFunction fun _ => true) 0).inOrder o).run .never
      [.event .screenOff, .event .screenOn]).state.log
    pushes [0, 1, 2, 3, 4, 5] ≠ pushes [5, 4, 3, 2, 1, 0] := by decide +kernel

end Service

end GestureActions
