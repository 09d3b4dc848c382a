import GestureActions.Proofs.Attentive.Simple
import GestureActions.Proofs.Service.Serving

/-! # Who listens to which sensor

The registrations of the service are those that its members' roles take by the latest
signals, with one that also goes by the lock of the attentive display. Every party has
registered and unregistered each sensor in turns, beginning with a registration.
-/
namespace GestureActions

namespace Role

/-- Whether the signals have a member of a role armed. -/
def due (g : Signals) : Role → Bool
  | pickup _ | unstow _ => g.lift
  | approach _ _ => g.hand
  | attentive _ _ _ => g.presence
  | alarm _ => g.snooze
  | call _ => g.hush
  | _ => false

end Role

namespace Member

theorem due_eq_role (g : Signals) (k : Member) : k.due g = k.role.due g := by
  cases k with
  | observer o => cases o <;> rfl
  | _ => rfl

end Member

namespace World

variable {c : Config} {g : Signals} {w : World} {p : Party} {k : Member}

theorem Serves.isArmed_eq (h : w.Serves c g) (hk : w.member? p = some k) : k.isArmed = k.due g :=
  (h.standing p _ (standing_eq hk)).member.isArmed

/-- Whoever has no say in the hub has never asked anything of it. -/
theorem Serves.isChain_changes (h : w.Serves c g) (p : Party) (t : Sensor) :
    (false :: (Holding.sensor t).changes (w.log.callsOf p)).IsChain (· ≠ ·) := by
  cases hs : w.standing p with
  | some s =>
    obtain ⟨k, hk, rfl⟩ := Option.map_eq_some_iff.mp hs
    rw [Holding.changes_callsOf]
    exact isChain_of_alternation? ((h.balanced p _ hs).calls (.sensor t))
  | none =>
    have hnone : (Holding.sensor t).changes (w.log.callsOf p) = [] := by
      refine List.filterMap_eq_nil_iff.mpr fun x hx => ?_
      obtain ⟨e, he, rfl⟩ := List.mem_map.mp hx
      obtain ⟨he, hp⟩ := List.mem_filter.mp he
      rcases h.proper e he with ⟨_, hclock | ⟨o, _, ho⟩⟩ | ⟨hsome, _⟩
      · rw [hclock]; rfl
      · rw [ho]; rfl
      · rw [of_decide_eq_true hp, hs] at hsome
        cases hsome
    rw [hnone]
    exact List.isChain_singleton false

end World

namespace Service

/-- Who is registered for what by the signals; `attending` is whether a display in the
simple mode is locked and not done with the stow sensor. -/
def listens (mode : AttentiveMode) (g : Signals) (attending : Bool) : Party → Sensor → Bool
  | .observer 1, .chopChop => true
  | .observer 2, .flatUp | .observer 2, .stow | .observer 3, .stow => g.lift
  | .observer 4, .irGesture => g.hand
  | .observer 5, .irGesture => g.presence
  | .observer 5, .stow => g.presence && (mode = .stateMerge || attending)
  | .alarm, .irGesture => g.snooze
  | .call, .irGesture => g.hush
  | _, _ => false

theorem hears_of_serves {c : Config} {g : Signals} {w : World} (h : w.Serves c g) {attending : Bool}
    (hstow : c.mode = .simple → w.hears display .stow = attending ∧ (attending = true → g.presence = true))
    (p : Party) (t : Sensor) : w.hears p t = listens c.mode g attending p t := by
  cases hp : cast c p with
  | none =>
    have hnone : w.standing p = none := by
      have hrole := h.cast p
      rw [hp] at hrole
      exact Option.map_eq_none_iff.mp hrole
    rw [h.outsider p hnone]
    unfold listens
    split <;> first | rfl | cases hp
  | some ρ =>
    obtain ⟨k, hk, rfl⟩ := h.member hp
    have hheld := h.hears_eq hk .stow
    have hears : w.hears p t = k.role.listens (k.role.due g) (k.holds (.sensor .stow)) t := by
      rw [h.hears_eq hk, Member.holds_sensor, h.isArmed_eq hk, Member.due_eq_role]
    rw [hears, ← hheld]
    generalize k.role = ρ at hp
    unfold cast at hp
    split at hp
    case h_6 =>
      cases hp
      cases hm : c.mode with
      | simple =>
        obtain ⟨hstow, hpresence⟩ := hstow hm
        have hattending : (g.presence && (decide (AttentiveMode.simple = .stateMerge) || attending)) = attending := by
          cases attending with
          | true => exact (Bool.and_true _).trans (hpresence rfl)
          | false => exact Bool.and_false _
        cases t with
        | stow => exact hstow.trans hattending.symm
        | _ => rfl
      | stateMerge =>
        cases t with
        | stow => exact (Bool.and_true _).symm
        | _ => rfl
    all_goals cases hp <;> cases t <;> rfl

theorem watched_assemble {c : Config} (hm : c.mode = .simple) (p : Preferences) (start : Instant) :
    World.Watched ⟨2⟩ .simple c.timings.stowWindow display (Attentive.Simple c.timings.stowWindow)
      (assemble c p start) ⟨start, []⟩ where
  orderly := orderly_assemble c p start
  display := (serves_assemble c p start).soleDisplay
  drawer := (serves_assemble c p start).drawer
  standing := by
    rw [assemble_eq, hm]
    exact ⟨_, ⟨false, false, .initial .simple c.timings⟩, rfl, ⟨p.attentive, rfl, rfl, fun _ => rfl⟩,
      Attentive.Simple.initial c.timings start⟩

/-- The diary of the display begins with the service. -/
theorem watched_start {c : Config} (hm : c.mode = .simple) {p : Preferences} {start : Instant} {interactive : Bool}
    {w : World} (hw : (assemble c p start).meet .never (wake interactive) = .done w) :
    World.Watched ⟨2⟩ .simple c.timings.stowWindow display (Attentive.Simple c.timings.stowWindow) w ⟨w.now, []⟩ := by
  obtain ⟨v, hv, hmet⟩ := World.meet_never (orderly_assemble c p start) (wake interactive)
  obtain ⟨v', b, b', qs, hv', _, _, hwatched⟩ :=
    (watched_assemble hm p start).meet (Attentive.Simple.lasts _ _) (wake interactive)
  rw [hw] at hv hv'
  cases hv
  cases hv'
  have hnow : w.now = start := by
    rw [World.now, hmet.clock, assemble_eq]
    cases interactive <;> rfl
  have hnext : ∀ was is now listening,
      (Session.mk start []).next was is now ((assemble c p start).reading? display (wake interactive)) listening =
        if is && !was then ⟨now, []⟩ else ⟨start, []⟩ := by
    intro was is now listening
    cases interactive <;> rfl
  have hstart : (assemble c p start).now = start := by rw [assemble_eq]; rfl
  rw [hnext, hstart, ite_self] at hwatched
  rwa [hnow]

/-- A display in the simple mode attends to the stow sensor only while it is to be armed. -/
theorem attending_of_serves {c : Config} (hm : c.mode = .simple) {p : Preferences} {start : Instant}
    {interactive : Bool} {u w : World} (hu : (assemble c p start).meet .never (wake interactive) = .done u)
    {h : List Stimulus} (hw : u.run .never h = .done w) {g : Signals} (hg : w.Serves c g) :
    let attending := w.isLocked display && !(u.watch display h).2.retired c.timings.stowWindow
    w.hears display .stow = attending ∧ (attending = true → g.presence = true) := by
  obtain ⟨hrun, hwatched⟩ := (watched_start hm hu).watch (Attentive.Simple.lasts _ _) h
  have he : (u.watch display h).1 = w := by
    rw [hw] at hrun
    cases hrun
    rfl
  obtain ⟨hears, hlock⟩ := Attentive.Simple.watched hwatched
  rw [he] at hears hlock
  refine ⟨hears, fun hattending => ?_⟩
  obtain ⟨k, hk, hrole⟩ := hg.member (p := display) rfl
  have hlocked := (Bool.and_eq_true_iff.mp hattending).1
  rw [hlock] at hlocked
  have harmed := (Bool.and_eq_true_iff.mp hlocked).1
  rw [World.isArmed, hk, Option.any_some, hg.isArmed_eq hk, Member.due_eq_role, hrole] at harmed
  exact harmed

/-- A valid configuration starts the service, and after any history of stimuli the hub
lists just the listeners that the latest signals and the session of the display ask for,
each of them once, and nobody has registered twice in a row or unregistered in vain. -/
theorem run_registrations {c : Config} (hc : c.check = .ok c) (store : PreferenceStore) (interactive : Bool)
    (now : Instant) :
    ∃ s, start c store interactive now = .ok s ∧ ∀ h, ∃ w, s.world.run .never h = .done w ∧
      let stored := fun q : Preference => (store.get? q.key).getD (c.preferences.get q)
      let g := Signals.after ⟨some interactive, false, .idle, stored⟩ h
      let d := (s.world.watch display h).2
      w.registry.pairs.Nodup ∧
      (∀ p t, (t, p) ∈ w.registry.pairs ↔
        listens c.mode g (w.isLocked display && !d.retired c.timings.stowWindow) p t = true) ∧
      ∀ p t, (false :: (Holding.sensor t).changes (w.log.callsOf p)).IsChain (· ≠ ·) := by
  obtain ⟨u, hs, hu, hserves⟩ := start_serves hc store interactive now
  refine ⟨_, hs, fun h => ?_⟩
  obtain ⟨w, hw, hg⟩ := hserves.run h
  refine ⟨w, hw, hg.orderly.nodup, fun p t => ?_, hg.isChain_changes⟩
  have hears := hears_of_serves hg (fun hm => attending_of_serves hm hu hw hg) p t
  rw [← hears, World.hears, decide_eq_true_eq]

theorem run_registrations_simple :
    let c : Config := { Config.byDefault with mode := .simple }
    c.check = .ok c ∧
    ∃ s, start c [("gesture_attentive_display", true)] true 0 = .ok s ∧
      ∀ h, ∃ w, s.world.run .never h = .done w ∧
        let stored := fun q : Preference =>
          (PreferenceStore.get? [("gesture_attentive_display", true)] q.key).getD (c.preferences.get q)
        let g := Signals.after ⟨some true, false, .idle, stored⟩ h
        let d := (s.world.watch display h).2
        w.registry.pairs.Nodup ∧
        (∀ p t, (t, p) ∈ w.registry.pairs ↔
          listens .simple g (w.isLocked display && !d.retired c.timings.stowWindow) p t = true) ∧
        ∀ p t, (false :: (Holding.sensor t).changes (w.log.callsOf p)).IsChain (· ≠ ·) :=
  ⟨rfl, run_registrations rfl _ true 0⟩

end Service

end GestureActions
