import GestureActions.Proofs.Service.Isolation
import GestureActions.Proofs.Service.Redundancy

/-! # The throttle of the doze sink

The doze sink is fired over a dark screen only. It then asks for a pulse if more than its
interval has passed since the screen went off and since the last pulse, whichever came
later. Where the clock does not go back, no two pulses come within an interval, and none
comes within an interval of the screen going off.
-/
namespace GestureActions

namespace Stimulus

/-- Whether the screen was off when it was last heard of. -/
def dark (h : List Stimulus) : Bool := (h.filterMap screen?).getLast? = some false

variable {x : Stimulus}

theorem dark_snoc (h : List Stimulus) (x : Stimulus) :
    dark (h ++ [x]) = x.screen?.elim (dark h) (fun on => !on) := by
  unfold dark
  rw [List.filterMap_append, List.getLast?_append]
  cases hx : x.screen? with
  | none => simp [hx]
  | some on => cases on <;> simp [hx]

theorem screen?_of_notice {on : Bool} (hm : x.message? = some (.notice (.screen on))) : x.screen? = some on := by
  rcases eq_of_notice hm with ⟨b, hb, rfl⟩ | ⟨q, v, hn, _⟩
  · cases hb
    cases on <;> rfl
  · cases hn

theorem screen?_eq_none (hm : ∀ on, x.message? ≠ some (.notice (.screen on))) : x.screen? = none := by
  cases x with
  | event e =>
    cases e with
    | screenOn => exact absurd rfl (hm true)
    | screenOff => exact absurd rfl (hm false)
    | _ => rfl
  | _ => rfl

end Stimulus

theorem Signals.screen_after {g : Signals} (hg : g.screen = none) (h : List Stimulus) :
    (g.after h).screen = some false ↔ Stimulus.dark h = true := by
  rw [Signals.after, hg, Option.or_none, Stimulus.dark, decide_eq_true_iff]

/-- A pulse is due at the end of a history if the screen is off and more than the interval has
passed since it went off and since the last of the pulses, with the gap cut off at the ends of
the range. -/
def Doze.Due (interval : Span) (start : Instant) (h : List Stimulus) (pulses : List Instant) : Prop :=
  ∃ k, Stimulus.Rose Stimulus.dark h k ∧
    let off := Stimulus.time start k
    let last := max off.toInt (pulses.getLastD off).toInt
    interval.capped < max Instant.first (min ((Stimulus.time start h).toInt - last) Instant.last)

namespace Throttle

/-- A throttle that knows a history and the times of the pulses in it. -/
structure Paces (start : Instant) (h : List Stimulus) (pulses : List Instant) (t : Throttle) : Prop where
  screenOff : t.screenOff = Stimulus.dark h
  past : t.lastPulse.toInt ≤ (Stimulus.time start h).toInt
  after : ∀ p ∈ pulses, p.toInt ≤ t.lastPulse.toInt
  since : ∀ k, Stimulus.Rose Stimulus.dark h k →
    t.lastPulse.toInt = max (Stimulus.time start k).toInt (pulses.getLastD (Stimulus.time start k)).toInt

variable {start : Instant} {h : List Stimulus} {pulses : List Instant} {t : Throttle} {x : Stimulus}

theorem paces_initial : Paces start [] [] ⟨Instant.nearest Instant.first, false⟩ where
  screenOff := rfl
  past := by
    have hfirst := Instant.first_le_toInt (Stimulus.time start [])
    rw [Instant.toInt_nearest]
    simp only [Instant.first, Instant.last] at *
    omega
  after := nofun
  since k hk := by
    obtain ⟨y, l, he, _⟩ := hk
    exact absurd he.symm (by simp)

/-- What says nothing of the screen leaves it to the throttle as it was. -/
theorem Paces.aside (hp : Paces start h pulses t) (hx : x.screen? = none)
    (hle : (Stimulus.time start h).toInt ≤ (Stimulus.time start (h ++ [x])).toInt) :
    Paces start (h ++ [x]) pulses t where
  screenOff := by rw [hp.screenOff, Stimulus.dark_snoc, hx, Option.elim_none]
  past := Int.le_trans hp.past hle
  after := hp.after
  since k hk := by
    obtain ⟨hdark, ⟨_, hk⟩ | ⟨hoff, _⟩⟩ := hk.of_snoc
    · exact hp.since k hk
    · rw [Stimulus.dark_snoc, hx, Option.elim_none, hoff] at hdark
      cases hdark

theorem Paces.screenOn (hp : Paces start h pulses t) (hx : x.screen? = some true)
    (hle : (Stimulus.time start h).toInt ≤ (Stimulus.time start (h ++ [x])).toInt) :
    Paces start (h ++ [x]) pulses { t with screenOff := false } := by
  have hdark : Stimulus.dark (h ++ [x]) = false := by rw [Stimulus.dark_snoc, hx]; rfl
  refine ⟨hdark.symm, Int.le_trans hp.past hle, hp.after, fun k hk => ?_⟩
  rw [hk.of_snoc.1] at hdark
  cases hdark

/-- A screen that is off already does not go off. -/
theorem Paces.still (hp : Paces start h pulses t) (hx : x.screen? = some false) (hoff : Stimulus.dark h = true)
    (hle : (Stimulus.time start h).toInt ≤ (Stimulus.time start (h ++ [x])).toInt) :
    Paces start (h ++ [x]) pulses t where
  screenOff := by rw [hp.screenOff, hoff, Stimulus.dark_snoc, hx]; rfl
  past := Int.le_trans hp.past hle
  after := hp.after
  since k hk := by
    obtain ⟨_, ⟨_, hk⟩ | ⟨hon, _⟩⟩ := hk.of_snoc
    · exact hp.since k hk
    · rw [hoff] at hon
      cases hon

theorem Paces.getLastD_le (hp : Paces start h pulses t) {u : Instant} (hu : t.lastPulse.toInt ≤ u.toInt) :
    (pulses.getLastD u).toInt ≤ u.toInt := by
  rcases List.mem_cons.mp (List.getLastD_mem_cons (l := pulses) (a := u)) with he | hm
  · exact Int.le_of_eq (congrArg Int64.toInt he)
  · exact Int.le_trans (hp.after _ hm) hu

theorem Paces.goOff (hp : Paces start h pulses t) (hx : x.screen? = some false) (hon : Stimulus.dark h = false)
    (hle : (Stimulus.time start h).toInt ≤ (Stimulus.time start (h ++ [x])).toInt) :
    Paces start (h ++ [x]) pulses ⟨Stimulus.time start h, true⟩ where
  screenOff := by rw [Stimulus.dark_snoc, hx]; rfl
  past := hle
  after p hm := Int.le_trans (hp.after p hm) hp.past
  since k hk := by
    obtain ⟨_, ⟨hoff, _⟩ | ⟨_, rfl⟩⟩ := hk.of_snoc
    · rw [hon] at hoff
      cases hoff
    · exact (Int.max_eq_left (hp.getLastD_le hp.past)).symm

theorem Paces.pulse (hp : Paces start h pulses t) (hx : x.screen? = none)
    (hle : (Stimulus.time start h).toInt ≤ (Stimulus.time start (h ++ [x])).toInt) :
    Paces start (h ++ [x]) (pulses ++ [Stimulus.time start h]) { t with lastPulse := Stimulus.time start h } where
  screenOff := (hp.aside hx hle).screenOff
  past := hle
  after p hm := by
    rcases List.mem_append.mp hm with hm | hm
    · exact Int.le_trans (hp.after p hm) hp.past
    · exact Int.le_of_eq (congrArg (·.toInt) (List.mem_singleton.mp hm))
  since k hk := by
    -- the screen has been off since before now, so the pulse is what counts
    have hsince := (hp.aside hx hle).since k hk
    have hpast := hp.past
    rw [List.getLastD_concat]
    dsimp only
    omega

/-- The throttle lets a pulse through if and only if one is due. -/
theorem Paces.allows_iff (hp : Paces start h pulses t) (hdark : Stimulus.dark h = true) (interval : Span) :
    Doze.Throttle.allows interval (Stimulus.time start h) t = true ↔ Doze.Due interval start h pulses := by
  rw [Doze.Throttle.allows, decide_eq_true_iff, Instant.since, Instant.toInt_nearest]
  constructor
  · intro hlt
    obtain ⟨k, hk⟩ := Stimulus.rose_of_on rfl hdark
    refine ⟨k, hk, ?_⟩
    rwa [hp.since k hk] at hlt
  · rintro ⟨k, hk, hlt⟩
    rwa [hp.since k hk]

end Throttle

namespace Doze

variable {interval : Span} {now : Instant} {t : Throttle} {cs : List Call}

/-- What a fired sink does over a dark screen. -/
theorem feel_fire : Doze.feel false now (⟨interval, some t⟩, cs) (.fire .doze) =
    if Throttle.allows interval now t then
      (⟨interval, some { t with lastPulse := now }⟩, cs ++ [.readClock, .output (.broadcast dozePulse)])
    else (⟨interval, some t⟩, cs ++ [.readClock]) := by
  simp only [Doze.feel, fire, Bool.false_eq_true, if_false]
  split <;> rfl

theorem feel_screen {lit on : Bool} : Doze.feel lit now (⟨interval, some t⟩, cs) (.inform .doze (.screen on)) =
    if on then (⟨interval, some { t with screenOff := false }⟩, cs)
    else if t.screenOff then (⟨interval, some t⟩, cs)
    else (⟨interval, some ⟨now, true⟩⟩, cs ++ [.readClock]) := by
  cases on with
  | true => simp [Doze.feel, screen, Reaction.still, Reaction.calls]
  | false =>
    cases ht : t.screenOff with
    | true => simp [Doze.feel, screen, ht, Reaction.still, Reaction.calls]
    | false => simp [Doze.feel, screen, ht, Reaction.calls, Request.call?]

end Doze

namespace Throttle

variable {interval : Span} {start : Instant} {h : List Stimulus} {pulses : List Instant} {t : Throttle} {x : Stimulus}

/-- A notice brings the throttle up to date, without a pulse. -/
theorem Paces.feel_notice (hp : Paces start h pulses t) {n : Notice} (hx : x.message? = some (.notice n))
    (hle : (Stimulus.time start h).toInt ≤ (Stimulus.time start (h ++ [x])).toInt) (interval : Span) (lit : Bool)
    (cs : List Call) : ∃ t' cs', Doze.feel lit (Stimulus.time start h) (⟨interval, some t⟩, cs) (.inform .doze n) =
        (⟨interval, some t'⟩, cs ++ cs') ∧
      cs'.filter (Feature.owns .pulse) = [] ∧ Paces start (h ++ [x]) pulses t' := by
  cases n with
  | preference q v =>
    have hscreen : x.screen? = none := Stimulus.screen?_eq_none fun on he => by rw [hx] at he; cases he
    exact ⟨t, [], by rw [List.append_nil]; rfl, rfl, hp.aside hscreen hle⟩
  | screen on =>
    have hscreen := Stimulus.screen?_of_notice hx
    rw [Doze.feel_screen]
    cases on with
    | true => exact ⟨_, [], by rw [List.append_nil]; rfl, rfl, hp.screenOn hscreen hle⟩
    | false =>
      cases hoff : t.screenOff with
      | true => exact ⟨t, [], by rw [List.append_nil]; rfl, rfl, hp.still hscreen (hp.screenOff ▸ hoff) hle⟩
      | false => exact ⟨_, [.readClock], rfl, rfl, hp.goOff hscreen (hp.screenOff ▸ hoff) hle⟩

/-- A pulse that is due comes more than an interval after the screen went off and after every
pulse before. -/
theorem Paces.apart (hp : Paces start h pulses t) (hdue : Doze.Due interval start h pulses) :
    (∃ k, Stimulus.Rose Stimulus.dark h k ∧
      (interval.toNat : Int) < (Stimulus.time start h).toInt - (Stimulus.time start k).toInt) ∧
    ∀ p ∈ pulses, (interval.toNat : Int) < (Stimulus.time start h).toInt - p.toInt := by
  obtain ⟨k, hk, hlt⟩ := hdue
  have hsince := hp.since k hk
  have hpast := hp.past
  have hgap : (interval.toNat : Int) < (Stimulus.time start h).toInt - t.lastPulse.toInt := by
    dsimp only at hlt
    rw [← hsince, Span.capped] at hlt
    simp only [Instant.first, Instant.last] at hlt
    omega
  refine ⟨⟨k, hk, ?_⟩, fun p hm => ?_⟩
  · omega
  · have hafter := hp.after p hm
    omega

end Throttle

/-- The sink that a sentry of the dark screen fires. -/
def Role.darkSink? : Role → Option Sink
  | pickup sink | unstow sink | approach _ sink => some sink
  | _ => none

/-- A sentry of the dark screen that knows the signals fires its sink while the screen is off. -/
theorem Member.Follows.fires {g : Signals} {k : Member} (hk : k.Follows g) {sink : Sink}
    (hs : k.role.darkSink? = some sink) (now : Instant) (r : Reading) :
    (k.react now (.reading r)).after = [] ∨
      (k.react now (.reading r)).after = [.fire sink] ∧ g.screen = some false := by
  have hdue := hk.isArmed
  have hdark : ∀ b, (decide (g.screen = some false) && b) = true → g.screen = some false := fun b hb =>
    of_decide_eq_true (Bool.and_eq_true_iff.mp hb).1
  cases k with
  | observer o =>
    cases o with
    | pickup sink' s =>
      cases hs
      refine (Sentry.fires_or_not (Pickup.fires_or_not sink) now r s).imp id fun hfire => ⟨hfire.1, ?_⟩
      exact hdark _ (hdue.symm.trans hfire.2)
    | unstow sink' s =>
      cases hs
      refine (Sentry.fires_or_not (Unstow.fires_or_not sink) now r s).imp id fun hfire => ⟨hfire.1, ?_⟩
      exact hdark _ (hdue.symm.trans hfire.2)
    | approach c sink' s =>
      cases hs
      refine (Sentry.fires_or_not (Approach.fires_or_not c sink) now r s).imp id fun hfire => ⟨hfire.1, ?_⟩
      exact hdark _ (hdue.symm.trans hfire.2)
    | _ => cases hs
  | _ => cases hs

theorem Feature.length_trace_pulse (l : Log) : (pulse.trace l).length = Output.broadcastCount dozePulse l.outputs := by
  rw [trace, Output.broadcastCount, Log.outputs, List.count_eq_countP, List.countP_filterMap,
    ← List.countP_eq_length_filter, List.countP_map]
  refine List.countP_congr fun e _ => ?_
  obtain ⟨p, c⟩ := e
  cases c with
  | output o =>
    cases o with
    | broadcast a =>
      change decide (a = dozePulse) = true ↔ (Output.broadcast a == .broadcast dozePulse) = true
      rw [decide_eq_true_iff, beq_iff_eq, Output.broadcast.injEq]
    | _ => exact Iff.rfl
  | _ => exact Iff.rfl

namespace World

variable {c : Config} {g : Signals} {w : World} {x : Stimulus}

/-- How many pulses have been asked for. -/
def pulses (w : World) : Nat := Output.broadcastCount dozePulse w.log.outputs

/-- All pulses are the doze sink's. -/
theorem Serves.pulses_eq (h : w.Serves c g) : w.pulses = (w.sinks.doze.2.filter (Feature.owns .pulse)).length := by
  rw [pulses, ← Feature.length_trace_pulse, h.trace_eq]
  rfl

theorem Serves.fires (h : w.Serves c g) {q : Party} (hq : q ∈ Feature.parties .pulse) (r : Reading) :
    w.effectsOf (.reading r) q = [] ∨ w.effectsOf (.reading r) q = [.fire .doze] ∧ g.screen = some false := by
  obtain ⟨ρ, hcast, hρ⟩ : ∃ ρ, Service.cast c q = some ρ ∧ ρ.darkSink? = some .doze := by
    simp only [Feature.parties, List.mem_cons, List.not_mem_nil, or_false] at hq
    rcases hq with rfl | rfl | rfl <;> exact ⟨_, rfl, rfl⟩
  obtain ⟨k, hk, rfl⟩ := h.member hcast
  rw [effectsOf, hk]
  exact (h.standing q _ (standing_eq hk)).member.fires hρ w.now r

/-- The doze sink gets to feel of a notice, or of a reading that fires it over a dark screen. -/
theorem Serves.filter_doze (h : w.Serves c g) (x : Stimulus) :
    let es := (w.effects x).filter (·.sink? = some .doze)
    (∃ n, x.message? = some (.notice n) ∧ es = [.inform .doze n]) ∨
    (∀ n, x.message? ≠ some (.notice n)) ∧
      (es = [] ∨ (∃ r, x.message? = some (.reading r)) ∧ g.screen = some false ∧ es = [.fire .doze]) := by
  intro es
  cases hm : x.message? with
  | none => exact Or.inr ⟨fun n => nofun, Or.inl (by simp only [es, effects_eq_nil hm]; rfl)⟩
  | some m =>
    have hfilter : es = _ := h.filter_effects hm .doze
    cases m with
    | notice n =>
      exact Or.inl ⟨n, rfl, h.doze_notice hm (h.orderly.mem_audience hm (h.isSome_standing (p := .observer 0) rfl))⟩
    | reading r =>
      refine Or.inr ⟨fun n => nofun, ?_⟩
      cases hq : Service.source? .doze (.reading r) with
      | none =>
        rw [hq, Option.elim_none] at hfilter
        exact Or.inl hfilter
      | some q =>
        rw [hq, Option.elim_some] at hfilter
        by_cases hmem : q ∈ w.audience x
        · rw [if_pos hmem] at hfilter
          rcases h.fires (source?_doze_reading hq) r with hnil | ⟨hfire, hdark⟩
          · rw [hnil] at hfilter
            exact Or.inl hfilter
          · rw [hfire] at hfilter
            exact Or.inr ⟨⟨r, rfl⟩, hdark, hfilter⟩
        · rw [if_neg hmem] at hfilter
          exact Or.inl hfilter
    | ringing on => exact Or.inr ⟨fun n => nofun, Or.inl hfilter⟩
    | line l => exact Or.inr ⟨fun n => nofun, Or.inl hfilter⟩

/-- Over a dark screen a reading finds it so. -/
theorem Serves.screenIsOn_reading (h : w.Serves c g) {r : Reading} (hx : x.message? = some (.reading r))
    (hdark : g.screen = some false) : (w.prepare x).screenIsOn = false := by
  have hprepare : (w.prepare x).screen = w.screen := by
    rcases Stimulus.eq_of_reading hx with rfl | ⟨p, rfl⟩ <;> rfl
  rw [screenIsOn, hprepare, h.screen, hdark]
  rfl

/-- What a step does about pulses, given whether one is due. -/
structure Throttled (x : Stimulus) (due : Prop) (w v : World) : Prop where
  once : (w.effects x).count (.fire .doze) ≤ 1
  pulse : .fire .doze ∈ w.effects x → due → v.pulses = w.pulses + 1
  held : .fire .doze ∈ w.effects x → ¬ due → v.pulses = w.pulses ∧ v.doze = w.doze
  quiet : .fire .doze ∉ w.effects x → v.pulses = w.pulses

theorem throttled_of_quiet {due : Prop} {v : World} (hno : .fire .doze ∉ (w.effects x).filter (·.sink? = some .doze))
    (hv : v.pulses = w.pulses) : Throttled x due w v := by
  have hno : .fire .doze ∉ w.effects x := fun h => hno (List.mem_filter.mpr ⟨h, rfl⟩)
  refine ⟨?_, fun h => absurd h hno, fun h => absurd h hno, fun _ => hv⟩
  rw [List.count_eq_zero_of_not_mem hno]
  exact Nat.zero_le 1

theorem throttled_of_fire {due : Prop} {v : World} (hes : (w.effects x).filter (·.sink? = some .doze) = [.fire .doze])
    (hdue : due → v.pulses = w.pulses + 1) (hnot : ¬ due → v.pulses = w.pulses ∧ v.doze = w.doze) :
    Throttled x due w v := by
  have hfire : .fire .doze ∈ w.effects x := (List.mem_filter.mp (hes ▸ List.mem_cons_self)).1
  refine ⟨?_, fun _ => hdue, fun _ => hnot, fun hno => absurd hfire hno⟩
  rw [← List.count_filter (p := (·.sink? = some .doze)) rfl, hes]
  exact Nat.le_refl 1

/-- The times of all pulses in a run. -/
def pulseTimes (w : World) : List Stimulus → List Instant
  | [] => []
  | x :: r =>
    let v := (w.meet .never x).state
    List.replicate (v.pulses - w.pulses) w.now ++ v.pulseTimes r

/-- A service after a history, with the times of its pulses. -/
structure Dozes (c : Config) (g : Signals) (start : Instant) (h : List Stimulus) (ps : List Instant) (w : World) :
    Prop where
  serves : w.Serves c (g.after h)
  now : w.now = Stimulus.time start h
  throttle : ∃ t, w.doze = ⟨c.timings.dozeInterval, some t⟩ ∧ Throttle.Paces start h ps t
  count : ps.length = w.pulses
  spaced : ps.Pairwise fun s t => (c.timings.dozeInterval.toNat : Int) < t.toInt - s.toInt

variable {start : Instant} {h : List Stimulus} {ps : List Instant}

/-- The service goes on if its throttle does, and a pulse counts where it was asked for. -/
theorem Dozes.next (hd : w.Dozes c g start h ps) {x : Stimulus} {v : World} (hs : v.Serves c (g.after (h ++ [x])))
    (hnow : v.now = Stimulus.time start (h ++ [x])) {t : Throttle} {cs : List Call} {n : Nat}
    (hdoze : v.sinks.doze = (⟨c.timings.dozeInterval, some t⟩, w.callsOf .doze ++ cs))
    (hcs : (cs.filter (Feature.owns .pulse)).length = n)
    (ht : Throttle.Paces start (h ++ [x]) (ps ++ List.replicate n w.now) t)
    (hspaced : (ps ++ List.replicate n w.now).Pairwise fun s t =>
      (c.timings.dozeInterval.toNat : Int) < t.toInt - s.toInt) :
    v.pulses = w.pulses + n ∧ v.Dozes c g start (h ++ [x]) (ps ++ List.replicate (v.pulses - w.pulses) w.now) := by
  have hpulses : v.pulses = w.pulses + n := by
    rw [hs.pulses_eq, hd.serves.pulses_eq, hdoze, List.filter_append, List.length_append, hcs]
    rfl
  refine ⟨hpulses, ?_⟩
  rw [hpulses, Nat.add_sub_cancel_left]
  refine ⟨hs, hnow, ⟨t, congrArg Prod.fst hdoze, ht⟩, ?_, hspaced⟩
  rw [List.length_append, List.length_replicate, hd.count, hpulses]

/-- What asks for no pulse. -/
theorem Dozes.next_quiet (hd : w.Dozes c g start h ps) {x : Stimulus} {v : World}
    (hs : v.Serves c (g.after (h ++ [x]))) (hnow : v.now = Stimulus.time start (h ++ [x])) {t : Throttle}
    {cs : List Call} (hdoze : v.sinks.doze = (⟨c.timings.dozeInterval, some t⟩, w.callsOf .doze ++ cs))
    (hcs : cs.filter (Feature.owns .pulse) = []) (ht : Throttle.Paces start (h ++ [x]) ps t) :
    v.pulses = w.pulses ∧ v.Dozes c g start (h ++ [x]) (ps ++ List.replicate (v.pulses - w.pulses) w.now) := by
  refine hd.next hs hnow hdoze (n := 0) (congrArg List.length hcs) ?_ ?_
  · rwa [List.replicate_zero, List.append_nil]
  · rw [List.replicate_zero, List.append_nil]
    exact hd.spaced

/-- A service keeps its sink to the throttle, whatever it meets. -/
theorem Dozes.meet (hd : w.Dozes c g start h ps) (hg : g.screen = none) {x : Stimulus}
    (hle : (Stimulus.time start h).toInt ≤ (Stimulus.time start (h ++ [x])).toInt) :
    ∃ v, w.meet .never x = .done v ∧ Throttled x (Doze.Due c.timings.dozeInterval start h ps) w v ∧
      v.Dozes c g start (h ++ [x]) (ps ++ List.replicate (v.pulses - w.pulses) w.now) := by
  obtain ⟨v, hv, hm, hs⟩ := hd.serves.meet x
  obtain ⟨t, ht, hp⟩ := hd.throttle
  rw [← Signals.after_snoc] at hs
  have hnow : v.now = Stimulus.time start (h ++ [x]) := by
    rw [now_met hm, World.now, prepare_clock, hd.now, Stimulus.time_snoc]
  have hdoze : w.sinks.doze = (⟨c.timings.dozeInterval, some t⟩, w.callsOf .doze) := by rw [← ht]; rfl
  have hsink := hd.serves.doze_eq hv
  rw [hdoze, hd.now] at hsink
  refine ⟨v, hv, ?_⟩
  rcases hd.serves.filter_doze x with ⟨n, hn, hes⟩ | ⟨hn, hes | ⟨⟨r, hr⟩, hdark, hes⟩⟩
  · obtain ⟨t', cs, hfeel, hcs, hp'⟩ := hp.feel_notice hn hle c.timings.dozeInterval
      (w.prepare x).screenIsOn (w.callsOf .doze)
    rw [hes] at hsink
    obtain ⟨hpulses, hnext⟩ := hd.next_quiet hs hnow (hsink.trans hfeel) hcs hp'
    exact ⟨throttled_of_quiet (by simp [hes]) hpulses, hnext⟩
  · have hscreen := Stimulus.screen?_eq_none fun on => hn (.screen on)
    rw [hes] at hsink
    have hnone : ([] : List Call).filter (Feature.owns .pulse) = [] := rfl
    obtain ⟨hpulses, hnext⟩ := hd.next_quiet hs hnow (by rw [hsink, List.append_nil]; rfl) hnone
      (hp.aside hscreen hle)
    exact ⟨throttled_of_quiet (by simp [hes]) hpulses, hnext⟩
  · have hscreen := Stimulus.screen?_eq_none fun on => hn (.screen on)
    have hallows := hp.allows_iff ((Signals.screen_after hg h).mp hdark) c.timings.dozeInterval
    rw [hes, List.foldl_cons, List.foldl_nil, hd.serves.screenIsOn_reading hr hdark, Doze.feel_fire] at hsink
    by_cases hdue : Doze.Due c.timings.dozeInterval start h ps
    · rw [if_pos (hallows.mpr hdue)] at hsink
      have hspaced : (ps ++ List.replicate 1 w.now).Pairwise fun s t =>
          (c.timings.dozeInterval.toNat : Int) < t.toInt - s.toInt := by
        refine List.pairwise_append.mpr ⟨hd.spaced, List.pairwise_singleton .., fun p hm q hq => ?_⟩
        rw [List.mem_singleton.mp hq, hd.now]
        exact (hp.apart hdue).2 p hm
      obtain ⟨hpulses, hnext⟩ := hd.next hs hnow hsink (n := 1) rfl (hd.now ▸ hp.pulse hscreen hle) hspaced
      exact ⟨throttled_of_fire hes (fun _ => hpulses) fun hno => absurd hdue hno, hnext⟩
    · rw [if_neg fun h => hdue (hallows.mp h)] at hsink
      obtain ⟨hpulses, hnext⟩ := hd.next_quiet hs hnow hsink rfl (hp.aside hscreen hle)
      have hsame : v.doze = w.doze := (congrArg Prod.fst hsink).trans ht.symm
      exact ⟨throttled_of_fire hes (fun h => absurd h hdue) fun _ => ⟨hpulses, hsame⟩, hnext⟩

theorem Dozes.run (hd : w.Dozes c g start h ps) (hg : g.screen = none) {l : List Stimulus}
    (ho : Stimulus.Onward start (h ++ l)) :
    ∃ v, w.run .never l = .done v ∧ v.Dozes c g start (h ++ l) (ps ++ w.pulseTimes l) := by
  induction l generalizing w h ps with
  | nil => exact ⟨w, rfl, by rwa [pulseTimes, List.append_nil, List.append_nil]⟩
  | cons x r ih =>
    rw [← List.singleton_append, ← List.append_assoc] at ho
    obtain ⟨v, hv, _, hv'⟩ := hd.meet hg ho.of_append.time_le
    obtain ⟨u, hu, hu'⟩ := ih hv' ho
    refine ⟨u, ?_, ?_⟩
    · rw [World.run, Outcome.each, hv]
      exact hu
    · rw [List.append_assoc, List.append_assoc] at hu'
      rw [pulseTimes, hv]
      exact hu'

end World

namespace Service

theorem dozes_assemble (c : Config) (p : Preferences) (start : Instant) :
    (assemble c p start).Dozes c ⟨none, false, .idle, p.get⟩ start [] [] where
  serves := serves_assemble c p start
  now := by
    rw [assemble_eq]
    rfl
  throttle := ⟨_, by rw [assemble_eq]; rfl, Throttle.paces_initial⟩
  count := by
    rw [assemble_eq]
    rfl
  spaced := .nil

/-- No pulse is asked for at the start. -/
theorem start_dozes {c : Config} (hc : c.check = .ok c) (store : PreferenceStore) (interactive : Bool) (now : Instant) :
    let p := c.preferences.overlay store
    ∃ w, start c store interactive now = .ok ⟨c, p, w⟩ ∧
      w.Dozes c ⟨none, false, .idle, p.get⟩ now [wake interactive] [] := by
  intro p
  obtain ⟨w, hs, hw, _⟩ := start_serves hc store interactive now
  have htime : Stimulus.time now [wake interactive] = Stimulus.time now [] := by cases interactive <;> rfl
  obtain ⟨v, hv, hthrottled, hd⟩ := (dozes_assemble c p now).meet rfl (x := wake interactive)
    (Int.le_of_eq (congrArg Int64.toInt htime.symm))
  obtain rfl : v = w := by
    rw [hw] at hv
    cases hv
    rfl
  have hquiet := hthrottled.quiet fun hfire => by
    obtain ⟨m, ρ, hm, hsends⟩ := World.sends_of_mem_effects hfire
    cases interactive <;> cases hm <;> cases hsends
  rw [hquiet, Nat.sub_self] at hd
  exact ⟨v, hs, hd⟩

/-- A valid configuration starts the service. As long as the clock is not set back, a pulse is
asked for when the doze sink is fired and one is due: when the screen is off and more than the
interval has passed since it went off, be it at the start, and since the last pulse. A sink
that is fired otherwise is left as it is. So no two pulses come within an interval, none comes
within an interval of the screen going off, and a screen that is said to be off once more
puts no pulse off. -/
theorem run_throttled {c : Config} (hc : c.check = .ok c) (store : PreferenceStore) (interactive : Bool)
    (now : Instant) {h : List Stimulus} (hh : Stimulus.Onward now h) :
    ∃ s w, start c store interactive now = .ok s ∧ s.world.run .never h = .done w ∧
      let interval := c.timings.dozeInterval
      let told := wake interactive :: h
      let pulses := s.world.pulseTimes h
      pulses.length = w.pulses ∧
      pulses.Pairwise (fun t u => (interval.toNat : Int) < u.toInt - t.toInt) ∧
      (Stimulus.dark told = true → w.meet .never (.event .screenOff) = .done w) ∧
      ∀ x, Stimulus.Onward now (h ++ [x]) → ∃ v, w.meet .never x = .done v ∧
        World.Throttled x (Doze.Due interval now told pulses) w v ∧
        (v.pulses ≠ w.pulses → ∃ k, Stimulus.Rose Stimulus.dark told k ∧
          (interval.toNat : Int) < (Stimulus.time now told).toInt - (Stimulus.time now k).toInt) := by
  obtain ⟨u, hs, hstart⟩ := start_dozes hc store interactive now
  have htold : ∀ l, Stimulus.Onward now l → Stimulus.Onward now ([wake interactive] ++ l) := fun l hl => by
    cases interactive <;> exact hl
  obtain ⟨w, hw, hd⟩ := hstart.run rfl (htold h hh)
  refine ⟨_, w, hs, hw, hd.count, hd.spaced, fun hdark => ?_, fun x hx => ?_⟩
  · exact hd.serves.receive_of_repeats (e := .screenOff) (decide_eq_true ((Signals.screen_after rfl _).mpr hdark)) .never
  · obtain ⟨v, hv, hthrottled, _⟩ := hd.meet rfl (htold _ hx).time_le
    refine ⟨v, hv, hthrottled, fun hne => ?_⟩
    obtain ⟨t, _, ht⟩ := hd.throttle
    by_cases hfire : .fire .doze ∈ w.effects x
    · by_cases hdue : Doze.Due c.timings.dozeInterval now ([wake interactive] ++ h) (u.pulseTimes h)
      · exact (ht.apart hdue).1
      · exact absurd (hthrottled.held hfire hdue).1 hne
    · exact absurd (hthrottled.quiet hfire) hne

/-- The device is lifted twice in the dark, the first time just when the interval is over. -/
theorem run_throttled_lifts :
    let h := [Stimulus.clock 1500, .emission (.ofFlag .flatUp true), .emission (.ofFlag .flatUp false), .clock 1501,
      .emission (.ofFlag .flatUp true), .emission (.ofFlag .flatUp false)]
    Config.byDefault.check = .ok Config.byDefault ∧ Stimulus.Onward 0 h ∧
    ∃ s w, start .byDefault [] false 0 = .ok s ∧ s.world.run .never h = .done w ∧
      let told := wake false :: h
      let pulses := s.world.pulseTimes h
      pulses.length = w.pulses ∧
      pulses.Pairwise (fun t u => (1500 : Int) < u.toInt - t.toInt) ∧
      (Stimulus.dark told = true → w.meet .never (.event .screenOff) = .done w) ∧
      ∀ x, Stimulus.Onward 0 (h ++ [x]) → ∃ v, w.meet .never x = .done v ∧
        World.Throttled x (Doze.Due 1500 0 told pulses) w v ∧
        (v.pulses ≠ w.pulses → ∃ k, Stimulus.Rose Stimulus.dark told k ∧
          (1500 : Int) < (Stimulus.time 0 told).toInt - (Stimulus.time 0 k).toInt) := by
  intro h
  have hh : Stimulus.Onward 0 h := by decide
  exact ⟨rfl, hh, run_throttled (c := .byDefault) rfl [] false 0 hh⟩

example : (assemble .byDefault .byDefault 0).pulseTimes [wake false, .clock 1500, .emission (.ofFlag .flatUp true),
    .emission (.ofFlag .flatUp false), .clock 1501, .emission (.ofFlag .flatUp true),
    .emission (.ofFlag .flatUp false)] = [1501] := by decide

end Service

end GestureActions
