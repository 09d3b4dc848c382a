import GestureActions.Proofs.Service.Serving

/-! # Signals that say nothing new

An event that repeats what its signal says already, or that the service does not know,
leaves the service as it is and asks nothing of anyone, whatever came in between.
-/
namespace GestureActions

namespace Signals

/-- Whether an event says what the signals say already, or nothing that the service knows. -/
def repeats (g : Signals) : HostEvent → Bool
  | .screenOn => g.screen = some true
  | .screenOff => g.screen = some false
  | .alarm a => (AlarmAction.ofAction? a).all (·.isRinging = g.alarm)
  | .callState l => l = g.line
  | .preference k v => (Preference.ofKey? k).all (v = g.switches ·)

/-- Whether a message says of its signal what the signals say already. -/
def Agrees (g : Signals) : Message → Prop
  | .notice (.screen on) => g.screen = some on
  | .notice (.preference q v) => v = g.switches q
  | .ringing on => on = g.alarm
  | .line l => l = g.line
  | .reading _ => False

theorem agrees_of_repeats {g : Signals} {e : HostEvent} (h : g.repeats e = true) {m : Message}
    (hm : Stimulus.message? (.event e) = some m) : g.Agrees m := by
  cases e with
  | screenOn =>
    cases hm
    have hscreen : g.screen = some true := of_decide_eq_true h
    exact hscreen
  | screenOff =>
    cases hm
    have hscreen : g.screen = some false := of_decide_eq_true h
    exact hscreen
  | alarm a =>
    obtain ⟨b, hb, rfl⟩ := Option.map_eq_some_iff.mp hm
    rw [repeats, hb, Option.all_some] at h
    have halarm : b.isRinging = g.alarm := of_decide_eq_true h
    exact halarm
  | callState l =>
    cases hm
    have hline : l = g.line := of_decide_eq_true h
    exact hline
  | preference k v =>
    obtain ⟨q, hq, rfl⟩ := Option.map_eq_some_iff.mp hm
    rw [repeats, hq, Option.all_some] at h
    have hswitch : v = g.switches q := of_decide_eq_true h
    exact hswitch

end Signals

/-- An answer that asks nothing and leaves the state as it is. -/
structure Reaction.Keeps {σ : Type} (s : σ) (r : Reaction Effect σ) : Prop where
  before : r.before = []
  during : r.during = []
  next : r.next = s

theorem Reaction.keeps_still {σ : Type} (s : σ) : (still s).Keeps s := ⟨rfl, rfl, rfl⟩

theorem Reaction.Keeps.map {σ τ : Type} {s : σ} {r : Reaction Effect σ} (h : r.Keeps s) (f : σ → τ) :
    (r.map f).Keeps (f s) := ⟨h.before, h.during, congrArg f h.next⟩

namespace Sentry

variable {κ : Type} {present enabled : Bool} {s : Sentry κ}

/-- A sentry to which nothing comes of being called off while it is not armed. -/
def Relaxed (r : Routine κ) (s : Sentry κ) : Prop := ∀ d, s.duty = some d → d.Relaxed r

theorem Heeds.keeps_signal (h : s.Heeds present enabled) {r : Routine κ} (hr : s.Relaxed r) (now : Instant) :
    (s.signal r now present).Keeps s := by
  obtain ⟨on, duty⟩ := s
  obtain ⟨he, d, hd, hp, ha⟩ := h
  dsimp only at he hd
  subst he hd hp
  have hrelaxed : d.Relaxed r := hr d rfl
  have hsettle := Duty.settle_of_settled (d := { d with present := d.present }) hrelaxed now ha
  unfold Sentry.signal
  dsimp only
  rw [hsettle]
  exact ⟨rfl, rfl, rfl⟩

theorem Heeds.keeps_prefer (h : s.Heeds present enabled) {r : Routine κ} (hr : s.Relaxed r) (now : Instant)
    {q : Preference} {v : Bool} (hv : q = r.switch → v = enabled) : (s.prefer r now q v).Keeps s := by
  unfold Sentry.prefer
  split
  · rename_i hq
    obtain ⟨on, duty⟩ := s
    obtain ⟨he, d, hd, hp, ha⟩ := h
    dsimp only at he hd
    rw [hv hq]
    subst he hd hp
    have hrelaxed : d.Relaxed r := hr d rfl
    dsimp only
    rw [Duty.switched_eq_settle hrelaxed now on ha, Duty.settle_of_settled hrelaxed now ha]
    exact ⟨rfl, rfl, rfl⟩
  · exact Reaction.keeps_still s

theorem Heeds.keeps_notice {g : Signals} {r : Routine κ} {whenOn : Bool}
    (h : s.Heeds (g.screen = some whenOn) (g.switches r.switch)) (hr : s.Relaxed r) (now : Instant) {n : Notice}
    (hn : g.Agrees (.notice n)) : (s.notice r whenOn now n).Keeps s := by
  cases n with
  | screen on =>
    have hon : decide (g.screen = some whenOn) = (on == whenOn) := by
      rw [show g.screen = some on from hn]
      cases on <;> cases whenOn <;> rfl
    rw [hon] at h
    exact h.keeps_signal hr now
  | preference q v => exact h.keeps_prefer hr now fun hq => hq ▸ hn

end Sentry

namespace CallSilencer

variable {line : CallState} {enabled : Bool} {s : CallSilencer}

theorem Heeds.keeps_callState (h : s.Heeds line enabled) (c : Client) (now : Instant) :
    (s.callState c now line).Keeps s := by
  obtain ⟨on, duty⟩ := s
  obtain ⟨he, ⟨state, ringing, guard⟩, hd, hl, ha⟩ := h
  dsimp only at he hd hl ha
  subst he hd hl ha
  cases state <;> cases on <;> exact ⟨rfl, rfl, rfl⟩

theorem Heeds.keeps_prefer (h : s.Heeds line enabled) (c : Client) (now : Instant) {q : Preference} {v : Bool}
    (hv : q = .silence → v = enabled) : (s.prefer c now q v).Keeps s := by
  unfold CallSilencer.prefer
  split
  · rename_i hq
    obtain ⟨on, duty⟩ := s
    obtain ⟨he, ⟨state, ringing, guard⟩, hd, hl, ha⟩ := h
    dsimp only at he hd hl ha
    rw [hv hq]
    subst he hd hl ha
    cases state <;> cases on <;> exact ⟨rfl, rfl, rfl⟩
  · exact Reaction.keeps_still s

end CallSilencer

/-- A member in service that knows the signals makes nothing of what they say already. -/
theorem Member.Follows.keeps {g : Signals} {k : Member} (h : k.Follows g) (hk : k.Fit) {m : Message}
    (hm : g.Agrees m) (now : Instant) : (k.react now m).Keeps k := by
  have hstill : ∀ k : Member, (Reaction.still (ε := Effect) k).Keeps k := Reaction.keeps_still
  cases m with
  | reading r => exact hm.elim
  | notice n =>
    cases k with
    | observer o =>
      cases o with
      | doze => exact ⟨rfl, rfl, rfl⟩
      | flashlight sink => cases n <;> exact ⟨rfl, rfl, rfl⟩
      | pickup sink s =>
        have hkeeps := Sentry.Heeds.keeps_notice (r := Pickup.routine sink) h (fun _ _ _ => rfl) now hm
        exact (hkeeps.map _).map _
      | unstow sink s =>
        have hkeeps := Sentry.Heeds.keeps_notice (r := Unstow.routine sink) h (fun _ _ _ => rfl) now hm
        exact (hkeeps.map _).map _
      | approach c sink s =>
        have hkeeps := Sentry.Heeds.keeps_notice (r := Approach.routine c sink) h (fun _ _ _ => rfl) now hm
        exact (hkeeps.map _).map _
      | attentive c mode window s =>
        have hs : s.Relaxed (Attentive.routine c mode window) := fun d hd ha =>
          (Attentive.trades c mode window).relax d.core (ha ▸ hk d hd)
        have hkeeps := Sentry.Heeds.keeps_notice (r := Attentive.routine c mode window) h hs now hm
        exact (hkeeps.map _).map _
      | recorder name => exact ⟨rfl, rfl, rfl⟩
    | alarm c s =>
      cases n with
      | screen on => exact hstill _
      | preference q v =>
        have hv : q = .silence → v = g.switches .silence := fun hq => hq ▸ hm
        exact (Sentry.Heeds.keeps_prefer (r := AlarmSilencer.routine c) h (fun _ _ _ => rfl) now hv).map _
    | call c s =>
      cases n with
      | screen on => exact hstill _
      | preference q v => exact (CallSilencer.Heeds.keeps_prefer h c now fun hq => hq ▸ hm).map _
  | ringing on =>
    cases k with
    | alarm c s =>
      cases show on = g.alarm from hm
      exact (Sentry.Heeds.keeps_signal (r := AlarmSilencer.routine c) h (fun _ _ _ => rfl) now).map _
    | _ => exact hstill _
  | line l =>
    cases k with
    | call c s =>
      cases show l = g.line from hm
      exact (CallSilencer.Heeds.keeps_callState h c now).map _
    | _ => exact hstill _

theorem Outcome.each_of_forall {σ α : Type} {f : α → σ → Outcome σ} {l : List α} {s : σ}
    (h : ∀ a ∈ l, f a s = .done s) : each f l s = .done s := by
  induction l with
  | nil => rfl
  | cons a r ih =>
    rw [each, h a List.mem_cons_self]
    exact ih fun b hb => h b (List.mem_cons_of_mem a hb)

theorem Doze.Heeds.screen_self {on : Bool} {d : Doze} (h : d.Heeds (some on)) (now : Instant) :
    d.screen now on = .still d := by
  obtain ⟨interval, throttle⟩ := d
  obtain ⟨⟨last, off⟩, ht, hoff⟩ := h
  dsimp only at ht hoff
  subst ht hoff
  cases on <;> rfl

namespace World

variable {c : Config} {g : Signals} {w : World}

theorem seat_self {p : Party} {k : Member} (h : w.member? p = some k) : w.seat p k = w := by
  cases p with
  | observer i =>
    obtain ⟨o, ho, rfl⟩ := Option.map_eq_some_iff.mp h
    obtain ⟨hi, rfl⟩ := List.getElem?_eq_some_iff.mp ho
    change { w with observers := w.observers.set i w.observers[i] } = w
    rw [List.set_getElem_self]
  | alarm =>
    obtain ⟨v, hv, rfl⟩ := Option.map_eq_some_iff.mp h
    change { w with alarm := some v } = w
    rw [← hv]
  | call =>
    obtain ⟨v, hv, rfl⟩ := Option.map_eq_some_iff.mp h
    change { w with call := some v } = w
    rw [← hv]
  | doze => cases h
  | flashlight => cases h

/-- The sinks make nothing of it either. -/
theorem Serves.inform_of_agrees (h : w.Serves c g) {n : Notice} (hn : g.Agrees (.notice n)) (refuses : Refusals)
    (s : Sink) : w.inform refuses s n = .done w := by
  cases s with
  | doze =>
    cases n with
    | screen on =>
      have hdoze := h.doze
      rw [show g.screen = some on from hn] at hdoze
      rw [inform, hdoze.screen_self]
      rfl
    | preference q v => rfl
  | flashlight =>
    cases n with
    | screen on => rfl
    | preference q v =>
      have hsame : w.flashlight.prefer q v = w.flashlight := by
        unfold Flashlight.prefer
        split
        · rename_i hq
          rw [show v = g.switches q from hn, hq, ← h.flashlight]
        · rfl
      change Outcome.done { w with flashlight := w.flashlight.prefer q v } = .done w
      rw [hsame]
  | counter => cases n <;> rfl

theorem Serves.tell_of_agrees (h : w.Serves c g) {m : Message} (hm : g.Agrees m) (refuses : Refusals) (p : Party) :
    w.tell refuses m p = .done w := by
  unfold tell
  cases hk : w.member? p with
  | none => rfl
  | some k =>
    have hfit : k.Fit := (h.balanced p _ (standing_eq hk)).fit
    obtain ⟨hbefore, hduring, hnext⟩ := (h.standing p _ (standing_eq hk)).member.keeps hfit hm w.now
    dsimp only
    rw [carryOut, hbefore, hduring, hnext]
    change Outcome.each _ _ (w.seat p k) = _
    rw [seat_self hk]
    refine Outcome.each_of_forall fun e he => ?_
    have hcast := (h.cast p).symm.trans (roleOf_eq hk)
    have hsends := Member.sends_of_mem_after he
    generalize k.role = ρ at hcast hsends
    cases hsends with
    | notice n => exact h.inform_of_agrees hm refuses .doze
    | switch sink q v => exact h.inform_of_agrees hm refuses sink
    | record name n => exact absurd hcast Service.cast_ne_recorder
    | _ => exact hm.elim

/-- A service that knows the signals is left as it is by events that repeat them, and is
asked nothing then that could be refused. -/
theorem Serves.receive_of_repeats (h : w.Serves c g) {e : HostEvent} (he : g.repeats e = true) (refuses : Refusals) :
    w.receive refuses e = .done w := by
  have hprepare : w.prepare (.event e) = w := by
    have hscreen := h.screen
    cases e with
    | screenOn =>
      rw [show g.screen = some true from of_decide_eq_true he] at hscreen
      change { w with screen := some true } = w
      rw [← hscreen]
    | screenOff =>
      rw [show g.screen = some false from of_decide_eq_true he] at hscreen
      change { w with screen := some false } = w
      rw [← hscreen]
    | _ => rfl
  change w.meet refuses (.event e) = _
  rw [meet_eq, hprepare]
  cases hm : Stimulus.message? (.event e) with
  | none => rfl
  | some m => exact Outcome.each_of_forall fun p _ => h.tell_of_agrees (Signals.agrees_of_repeats he hm) refuses p

end World

namespace Service

/-- A valid configuration starts the service, and after any history of stimuli an event
that repeats the latest signals, or that the service does not know, is taken in without a
call to anyone and changes nothing: there is nothing in it that could be refused. -/
theorem run_redundant {c : Config} (hc : c.check = .ok c) (store : PreferenceStore) (interactive : Bool)
    (now : Instant) :
    ∃ s, start c store interactive now = .ok s ∧ ∀ h, ∃ w, s.world.run .never h = .done w ∧
      let stored := fun q : Preference => (store.get? q.key).getD (c.preferences.get q)
      let g := Signals.after ⟨some interactive, false, .idle, stored⟩ h
      ∀ e, g.repeats e = true → ∀ refuses, w.receive refuses e = .done w := by
  obtain ⟨u, hs, _, hserves⟩ := start_serves hc store interactive now
  refine ⟨_, hs, fun h => ?_⟩
  obtain ⟨w, hw, hg⟩ := hserves.run h
  exact ⟨w, hw, fun e he refuses => hg.receive_of_repeats he refuses⟩

/-- The throttle of the doze sink is not restarted by a screen that goes off once more. -/
theorem run_redundant_screenOff : Config.byDefault.check = .ok Config.byDefault ∧
    ∃ s, start .byDefault [] true 0 = .ok s ∧
      ∃ w, s.world.run .never [.event .screenOff, .clock 7, .emission ⟨.flatUp, []⟩] = .done w ∧
        Signals.repeats (Signals.after ⟨some true, false, .idle, Config.byDefault.preferences.get⟩
          [.event .screenOff, .clock 7, .emission ⟨.flatUp, []⟩]) .screenOff = true ∧
        ∀ refuses, w.receive refuses .screenOff = .done w := by
  obtain ⟨s, hs, hrun⟩ := run_redundant (c := .byDefault) rfl [] true 0
  obtain ⟨w, hw, hrepeats⟩ := hrun [.event .screenOff, .clock 7, .emission ⟨.flatUp, []⟩]
  exact ⟨rfl, s, hs, w, hw, rfl, hrepeats .screenOff rfl⟩

end Service

end GestureActions
