import GestureActions.Proofs.Attentive.Session
import GestureActions.Proofs.Faults.Assembly

/-! # Faults stay where they are

In any world that is put together, and whatever is refused at any time, a lost member leaves
its registrations, its vote and its wake holds as they are and makes no call but to read the
clock; a lost pulse sink sends no more pulses. Every other member goes by the last signal
that got to it and by its own switch, as if nothing had been refused.
-/
namespace GestureActions

open Request

/-- In service, the bright screen is held exactly by a locked display. -/
theorem Member.holds_bright {k : Member} (hk : k.Fit) : k.holds .bright = k.isLocked := by
  cases k with
  | observer o =>
    cases o with
    | pickup sink s => obtain ⟨enabled, _ | ⟨present, _ | _, core⟩⟩ := s <;> rfl
    | unstow sink s => obtain ⟨enabled, _ | ⟨present, _ | _, core⟩⟩ := s <;> rfl
    | approach c sink s => obtain ⟨enabled, _ | ⟨present, _ | _, core⟩⟩ := s <;> rfl
    | attentive c mode window s =>
      obtain ⟨enabled, _ | ⟨present, armed, core⟩⟩ := s
      · rfl
      · have hfit : core.Fit mode armed := hk _ rfl
        cases armed with
        | true => rfl
        | false => exact (hfit.idle rfl).symm
    | _ => rfl
  | alarm c s => obtain ⟨enabled, _ | ⟨present, _ | _, core⟩⟩ := s <;> rfl
  | call c s => obtain ⟨enabled, _ | ⟨state, _ | _, guard⟩⟩ := s <;> rfl

namespace World

variable {w v : World} {ds : List Delivery} {p : Party} {k : Member}

theorem Adds.callsOf_clock (h : w.Adds (fun e => e.party = p → e.call = .readClock) v) :
    ∃ n, v.log.callsOf p = w.log.callsOf p ++ List.replicate n .readClock := by
  obtain ⟨l, hl, hclock⟩ := h
  have hcalls : Log.callsOf l p = List.replicate (Log.callsOf l p).length .readClock := by
    refine List.eq_replicate_of_mem fun c hc => ?_
    obtain ⟨e, he, rfl⟩ := List.mem_map.mp hc
    obtain ⟨hel, hep⟩ := List.mem_filter.mp he
    exact hclock e hel (of_decide_eq_true hep)
  refine ⟨(Log.callsOf l p).length, ?_⟩
  rw [← hcalls, hl, Log.callsOf, List.filter_append, List.map_append, Log.callsOf, Log.callsOf]

/-- All that comes of telling a lost member anything is that it reads the clock. -/
theorem log_tell_of_isLost (hk : w.member? p = some k) (hlost : k.IsLost) (refuses : Refusals) (m : Message) :
    ∃ n, (w.tell refuses m p).state.log = w.log ++ List.replicate n ⟨p, .readClock⟩ := by
  obtain ⟨hbefore, hduring, hafter, _⟩ := (k.founders_react w.now m).idles hlost
  have hasks : ∀ u, w.Adds (· = ⟨p, .readClock⟩) u → w.Adds (· = ⟨p, .readClock⟩) (u.perform refuses p .readClock).state := by
    intro u hu
    rcases perform_cases refuses p .readClock u with hdone | ⟨c, hrefused⟩ | ⟨c, v, d, hvote, _⟩
    · rw [hdone]
      exact hu.trans ⟨[⟨p, .readClock⟩], rfl, fun e he => List.mem_singleton.mp he⟩
    · rw [hrefused]
      exact hu
    · cases hvote
  have hadds : w.Adds (· = ⟨p, .readClock⟩) (w.tell refuses m p).state := by
    rw [tell, hk]
    refine carryOut_keeps (P := fun u => w.Adds (· = ⟨p, .readClock⟩) u) (fun q hq u hu => ?_)
      (fun u hu => hu.trans (adds_of_log (log_seat u p _))) (fun u hu => hu.trans (adds_of_log (log_seat u p _)))
      (fun e he => ?_) (adds_of_log rfl)
    · rw [hduring, List.append_nil] at hq
      rw [hbefore q hq]
      exact hasks u hu
    · rw [hafter] at he
      exact absurd he List.not_mem_nil
  obtain ⟨l, hl, hclock⟩ := hadds
  exact ⟨l.length, by rw [hl, ← List.eq_replicate_of_mem hclock]⟩

/-- What is left of a lost member's affairs for the rest of a run. -/
theorem Weathers.left (h : w.Weathers ds) (hk : w.member? p = some k) (hlost : k.IsLost) (l : List Trial) :
    (∃ k', (w.undergo l).member? p = some k' ∧ k'.role = k.role ∧ k'.IsLost) ∧
    (∃ n, (w.undergo l).log.callsOf p = w.log.callsOf p ++ List.replicate n .readClock) ∧
    (∀ t, (w.undergo l).hears p t = w.hears p t) ∧
    (∀ c, k.client? = some c → (w.undergo l).poll.vote? c = w.poll.vote? c) ∧
    (∀ r, PowerCall.isHeld r (((w.undergo l).log.callsOf p).filterMap Call.power?) =
      PowerCall.isHeld r ((w.log.callsOf p).filterMap Call.power?)) ∧
    ∀ refuses m, ∃ n, ((w.undergo l).tell refuses m p).state.log =
      (w.undergo l).log ++ List.replicate n ⟨p, .readClock⟩ := by
  obtain ⟨_, ⟨s, hs, hrole, hlost', hears, hvote⟩, hadds⟩ := h.dormant (standing_eq hk) hlost l
  obtain ⟨k', hk', rfl⟩ := Option.map_eq_some_iff.mp hs
  obtain ⟨n, hcalls⟩ := hadds.callsOf_clock
  refine ⟨⟨k', hk', hrole, hlost'⟩, ⟨n, hcalls⟩, fun t => congrFun hears t, fun c hc => ?_, fun r => ?_,
    fun refuses m => log_tell_of_isLost hk' hlost' refuses m⟩
  · have hclient : k'.client? = some c := by
      rw [Member.client?, Member.fixed_stake.congr hrole, ← Member.client?, hc]
    dsimp only at hvote
    rw [hclient, hc] at hvote
    exact hvote
  · rw [hcalls, List.filterMap_append, List.filterMap_replicate_of_none rfl, List.append_nil]

/-- What a member in service is to its last signal, its switch, the hub, the poll and the lock. -/
theorem Weathers.kept (h : w.Weathers ds) (hk : w.member? p = some k) (hlost : ¬ k.IsLost) :
    k.isArmed = (k.role.lastSignal p ds && k.isEnabled) ∧
    (∀ t, w.hears p t = k.role.listens k.isArmed (k.holds (.sensor .stow)) t) ∧
    (∀ b, k.stake = some b → w.poll.vote? b.client = some (b.vote k.isArmed)) ∧
    k.isLocked = PowerCall.isHeld .screenBright ((w.log.callsOf p).filterMap Call.power?) := by
  obtain ⟨hbalanced, g, hg, hpresent⟩ := (h.standing p _ (standing_eq hk)).resolve_left hlost
  refine ⟨?_, fun t => ?_, fun b hb => ?_, ?_⟩
  · rw [← hpresent]
    exact hg.member.isArmed_eq
  · rw [← Member.holds_sensor]
    exact hbalanced.hears t
  · have hvote := hg.vote
    dsimp only at hvote
    rw [Member.client?, hb] at hvote
    exact hvote
  · have hheld := getLastD_of_alternation? (hbalanced.calls .bright)
    rw [Holding.isHeld_eq, Holding.changes_callsOf, ← Member.holds_bright hbalanced.fit]
    exact hheld.symm

/-- Whatever a world is put together from and whatever is refused in a run of it: from the
moment a member is lost all that comes of telling it anything is that it reads the clock, and
its registrations, its vote and its wake holds stay; a lost pulse sink does no more either;
and every member in service is armed as its last
signal and its switch say, with the registrations, the vote and the lock that go with that. -/
theorem undergo_contains (start : Instant) (dozeInterval vibration : Span) (flashlight : Bool)
    (parts : List (Timings × Part)) (l : List Trial) :
    let built := assembled start dozeInterval vibration flashlight parts
    let w := built.undergo l
    (∀ p k, w.member? p = some k → k.IsLost → ∀ l',
      (∃ k', (w.undergo l').member? p = some k' ∧ k'.role = k.role ∧ k'.IsLost) ∧
      (∃ n, (w.undergo l').log.callsOf p = w.log.callsOf p ++ List.replicate n .readClock) ∧
      (∀ t, (w.undergo l').hears p t = w.hears p t) ∧
      (∀ c, k.client? = some c → (w.undergo l').poll.vote? c = w.poll.vote? c) ∧
      (∀ r, PowerCall.isHeld r (((w.undergo l').log.callsOf p).filterMap Call.power?) =
        PowerCall.isHeld r ((w.log.callsOf p).filterMap Call.power?)) ∧
      ∀ refuses m, ∃ n, ((w.undergo l').tell refuses m p).state.log =
        (w.undergo l').log ++ List.replicate n ⟨p, .readClock⟩) ∧
    (w.doze.throttle = none → ∀ l', (w.undergo l').doze.throttle = none ∧
      ∃ n, (w.undergo l').log.callsOf .doze = w.log.callsOf .doze ++ List.replicate n .readClock) ∧
    ∀ p k, w.member? p = some k → ¬ k.IsLost →
      k.isArmed = (k.role.lastSignal p (built.delivered l) && k.isEnabled) ∧
      (∀ t, w.hears p t = k.role.listens k.isArmed (k.holds (.sensor .stow)) t) ∧
      (∀ b, k.stake = some b → w.poll.vote? b.client = some (b.vote k.isArmed)) ∧
      k.isLocked = PowerCall.isHeld .screenBright ((w.log.callsOf p).filterMap Call.power?) := by
  intro built w
  have hfresh := fresh_assembled start dozeInterval vibration flashlight parts
  have hw : w.Weathers (built.delivered l) := hfresh.weathers.undergo l
  refine ⟨fun p k hk hlost l' => hw.left hk hlost l', fun hdoze l' => ?_, fun p k hk hlost => hw.kept hk hlost⟩
  obtain ⟨hthrottle, hadds⟩ := muted_undergo hdoze l'
  exact ⟨hthrottle, hadds.callsOf_clock⟩

/-- A silencer that cannot read the clock when the line begins to ring is lost, and stays
registered and stays with its vote. -/
theorem undergo_contains_ringing :
    let w := (assembled 0 0 0 false [(.byDefault, .call true)]).undergo
      [⟨fun _ c => c = .clock, .event (.callState .ringing)⟩]
    (∃ k, w.member? .call = some k ∧ k.IsLost) ∧
    ∀ l, (w.undergo l).hears .call .irGesture = true ∧
      (w.undergo l).poll.vote? ⟨1⟩ = some (.forGestures (.of .swipe)) := by
  intro w
  have hk : w.member? .call = some (.call ⟨1⟩ ⟨true, none⟩) := by decide +kernel
  have hlost := (undergo_contains 0 0 0 false [(.byDefault, .call true)]
    [⟨fun _ c => c = .clock, .event (.callState .ringing)⟩]).1 .call _ hk rfl
  refine ⟨⟨_, hk, rfl⟩, fun l => ?_⟩
  obtain ⟨_, _, hears, hvote, _⟩ := hlost l
  exact ⟨(hears .irGesture).trans (by decide +kernel), (hvote ⟨1⟩ rfl).trans (by decide +kernel)⟩

end World

end GestureActions
