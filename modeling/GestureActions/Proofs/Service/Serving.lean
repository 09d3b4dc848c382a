import GestureActions.Proofs.Service.Assembly
import GestureActions.Proofs.System.Balance
import GestureActions.Proofs.System.Sinks

/-! # The service at work

Whatever happens to the service, its members keep to their roles and to their holdings,
its sinks know the signals as the members do, and no call is made by anyone who has no
say in it.
-/
namespace GestureActions

namespace World

def roleOf (w : World) (p : Party) : Option Role := (w.standing p).map (·.member.role)

theorem roleOf_eq {w : World} {p : Party} {k : Member} (h : w.member? p = some k) : w.roleOf p = some k.role := by
  rw [roleOf, standing_eq h, Option.map_some]

end World

namespace Service

/-- Who is in the service. -/
def cast (c : Config) : Party → Option Role
  | .observer 0 => some .doze
  | .observer 1 => some (.flashlight .flashlight)
  | .observer 2 => some (.pickup .doze)
  | .observer 3 => some (.unstow .doze)
  | .observer 4 => some (.approach ⟨1⟩ .doze)
  | .observer 5 => some (.attentive ⟨2⟩ c.mode c.timings.stowWindow)
  | .call => some (.call ⟨3⟩)
  | .alarm => some (.alarm ⟨4⟩)
  | _ => none

/-- The attentive display of the service. -/
def display : Party := .observer attentiveAt

theorem eq_display_of_cast {c : Config} {p : Party} {client : Client} {mode : AttentiveMode} {window : Span}
    (h : cast c p = some (.attentive client mode window)) : p = display := by
  unfold cast at h
  split at h <;> first | rfl | cases h

theorem cast_ne_recorder {c : Config} {p : Party} {name : String} : cast c p ≠ some (.recorder name) := by
  intro h
  unfold cast at h
  split at h <;> cases h

/-- The party that a sink may hear from when a message goes round. -/
def source? : Sink → Message → Option Party
  | .doze, .notice _ => some (.observer 0)
  | .doze, .reading r =>
    match r.sensor with
    | .flatUp => some (.observer 2)
    | .stow => some (.observer 3)
    | .irGesture => some (.observer 4)
    | .chopChop => none
  | .flashlight, .notice (.preference _ _) => some (.observer 1)
  | .flashlight, .reading r => if r.sensor = .chopChop then some (.observer 1) else none
  | _, _ => none

theorem source?_of_sends {c : Config} {p : Party} {ρ : Role} (hp : cast c p = some ρ) {m : Message} {e : Effect}
    (he : ρ.Sends m e) {s : Sink} (hs : e.sink? = some s) : source? s m = some p := by
  unfold cast at hp
  split at hp
  · cases hp; cases he; cases hs; rfl
  · cases hp
    cases he with
    | switch p v => cases hs; rfl
    | chop =>
      rename_i hr
      cases hs
      simp only [source?, if_pos hr]
  · cases hp
    cases he with
    | lift =>
      rename_i hr
      cases hs
      simp only [source?, hr]
  · cases hp
    cases he with
    | unstow =>
      rename_i hr
      cases hs
      simp only [source?, hr]
  · cases hp
    cases he with
    | approach =>
      rename_i hr
      cases hs
      simp only [source?, hr]
  · cases hp; cases he
  · cases hp; cases he; cases hs
  · cases hp; cases he; cases hs
  · cases hp

end Service

/-- A doze sink in service that knows whether the screen is off. -/
def Doze.Heeds (seen : Option Bool) (d : Doze) : Prop :=
  ∃ t, d.throttle = some t ∧ t.screenOff = decide (seen = some false)

namespace Doze

variable {seen : Option Bool} {d : Doze}

theorem Heeds.fire (h : d.Heeds seen) (on : Bool) (now : Instant) : (d.fire on now).next.Heeds seen := by
  obtain ⟨t, ht, hs⟩ := h
  unfold Doze.fire
  cases on with
  | true => exact ⟨t, ht, hs⟩
  | false =>
    rw [ht]
    simp only [Bool.false_eq_true, if_false]
    split
    · exact ⟨_, rfl, hs⟩
    · exact ⟨t, ht, hs⟩

theorem Heeds.screen (h : d.Heeds seen) (now : Instant) (on : Bool) : (d.screen now on).next.Heeds (some on) := by
  obtain ⟨t, ht, _⟩ := h
  unfold Doze.screen
  rw [ht]
  cases on with
  | true => exact ⟨_, rfl, rfl⟩
  | false =>
    simp only [Bool.false_eq_true, if_false]
    split
    · rename_i hoff
      exact ⟨t, ht, hoff.trans rfl⟩
    · exact ⟨_, rfl, rfl⟩

/-- Nothing but a notice of the screen says anything of the screen. -/
theorem Heeds.feel {x : Doze × List Call} (h : x.1.Heeds seen) {e : Effect}
    (he : ∀ on, e ≠ .inform .doze (.screen on)) (on : Bool) (now : Instant) :
    (Doze.feel on now x e).1.Heeds seen := by
  unfold Doze.feel
  split
  · exact h.fire on now
  · exact absurd rfl (he _)
  · exact h

theorem Heeds.foldl_feel {x : Doze × List Call} (h : x.1.Heeds seen) {es : List Effect}
    (he : ∀ e ∈ es, ∀ on, e ≠ .inform .doze (.screen on)) (on : Bool) (now : Instant) :
    (es.foldl (Doze.feel on now) x).1.Heeds seen := by
  induction es generalizing x with
  | nil => exact h
  | cons e r ih =>
    have hr : ∀ e ∈ r, ∀ on, e ≠ .inform .doze (.screen on) := fun a ha => he a (List.mem_cons_of_mem e ha)
    exact ih (h.feel (he e List.mem_cons_self) on now) hr

end Doze

/-- Nothing but a notice of a switch moves the switch. -/
theorem Flashlight.foldl_feel_fst {es : List Effect} (he : ∀ e ∈ es, ∀ q v, e ≠ .inform .flashlight (.preference q v))
    (f : Flashlight × List Call) : (es.foldl Flashlight.feel f).1 = f.1 := by
  induction es generalizing f with
  | nil => rfl
  | cons e r ih =>
    have hone : (Flashlight.feel f e).1 = f.1 := by
      unfold Flashlight.feel
      split
      · rfl
      · exact absurd rfl (he _ List.mem_cons_self _ _)
      · rfl
    rw [List.foldl_cons, ih fun a ha => he a (List.mem_cons_of_mem e ha), hone]

namespace World

/-- A notice reaches every observer. -/
theorem Orderly.mem_audience {w : World} (h : w.Orderly) {x : Stimulus} {n : Notice}
    (hm : x.message? = some (.notice n)) {i : Nat} (hi : (w.standing (.observer i)).isSome) :
    .observer i ∈ w.audience x := by
  have hseat := List.mem_map_of_mem (f := Party.observer) (h.seated i hi)
  rcases Stimulus.eq_of_notice hm with ⟨on, _, rfl⟩ | ⟨q, v, _, rfl⟩
  · cases on <;> exact hseat
  · exact List.mem_append_left _ hseat

theorem prepare_screen {w : World} {g : Signals} (h : w.screen = g.screen) (x : Stimulus) :
    (w.prepare x).screen = (x.message?.elim g g.heard).screen := by
  cases x with
  | event e =>
    cases e with
    | alarm a =>
      simp only [prepare, Stimulus.message?]
      cases AlarmAction.ofAction? a <;> exact h
    | preference k v =>
      simp only [prepare, Stimulus.message?]
      cases Preference.ofKey? k <;> exact h
    | callState l => exact h
    | _ => rfl
  | _ => exact h

/-- A world that has come of the assembled service and knows the signals. -/
structure Serves (c : Config) (g : Signals) (w : World) : Prop extends w.Follows g where
  cast : ∀ p, w.roleOf p = Service.cast c p
  balanced : ∀ p s, w.standing p = some s → s.Balanced
  outsider : ∀ p, w.standing p = none → ∀ t, w.hears p t = false
  proper : w.Proper
  drawer : w.SoleDrawer Service.display
  screen : w.screen = g.screen
  doze : w.doze.Heeds g.screen
  flashlight : w.flashlight.enabled = g.switches .flashlight

variable {c : Config} {g : Signals} {w : World}

theorem Serves.member (h : w.Serves c g) {p : Party} {ρ : Role} (hp : Service.cast c p = some ρ) :
    ∃ k, w.member? p = some k ∧ k.role = ρ := by
  have hrole := h.cast p
  rw [hp] at hrole
  obtain ⟨s, hs, hρ⟩ := Option.map_eq_some_iff.mp hrole
  obtain ⟨k, hk, rfl⟩ := Option.map_eq_some_iff.mp hs
  exact ⟨k, hk, hρ⟩

theorem Serves.member_doze (h : w.Serves c g) : w.member? (.observer 0) = some (.observer .doze) := by
  obtain ⟨k, hk, hrole⟩ := h.member (p := .observer 0) rfl
  obtain ⟨o, _, rfl⟩ := Option.map_eq_some_iff.mp hk
  cases o <;> first | exact hk | cases hrole

theorem Serves.member_flashlight (h : w.Serves c g) :
    w.member? (.observer 1) = some (.observer (.flashlight .flashlight)) := by
  obtain ⟨k, hk, hrole⟩ := h.member (p := .observer 1) rfl
  obtain ⟨o, _, rfl⟩ := Option.map_eq_some_iff.mp hk
  cases o with
  | flashlight sink => cases hrole; exact hk
  | _ => cases hrole

theorem Serves.hears_eq (h : w.Serves c g) {p : Party} {k : Member} (hk : w.member? p = some k) (t : Sensor) :
    w.hears p t = k.holds (.sensor t) := (h.balanced p _ (standing_eq hk)).hears t

theorem sends_of_mem_effects {x : Stimulus} {e : Effect} (he : e ∈ w.effects x) :
    ∃ (m : Message) (ρ : Role), x.message? = some m ∧ ρ.Sends m e := by
  obtain ⟨m, p, k, hm, _, _, he⟩ := mem_effects he
  exact ⟨m, k.role, hm, Member.sends_of_mem_after he⟩

/-- All that a sink gets to feel of a message comes from one party. -/
theorem Serves.filter_effects (h : w.Serves c g) {x : Stimulus} {m : Message} (hm : x.message? = some m) (s : Sink) :
    (w.effects x).filter (·.sink? = some s) =
      (Service.source? s m).elim [] fun q =>
        if q ∈ w.audience x then (w.effectsOf m q).filter (·.sink? = some s) else [] := by
  have hsole : ∀ p, Service.source? s m ≠ some p → (w.effectsOf m p).filter (·.sink? = some s) = [] := by
    intro p hp
    refine List.filter_eq_nil_iff.mpr fun e he hs => hp ?_
    unfold effectsOf at he
    cases hk : w.member? p with
    | none =>
      rw [hk] at he
      exact absurd he List.not_mem_nil
    | some k =>
      rw [hk] at he
      have hsink : e.sink? = some s := of_decide_eq_true hs
      exact Service.source?_of_sends ((h.cast p).symm.trans (roleOf_eq hk)) (Member.sends_of_mem_after he) hsink
  rw [effects, hm, Option.elim_some]
  cases hq : Service.source? s m with
  | none =>
    rw [Option.elim_none]
    refine List.filter_eq_nil_iff.mpr fun e he hs => ?_
    obtain ⟨p, _, he⟩ := List.mem_flatMap.mp he
    have hnil := hsole p (hq ▸ (Option.some_ne_none p).symm)
    exact absurd hs (List.filter_eq_nil_iff.mp hnil e he)
  | some q =>
    refine filter_flatMap_of_sole (nodup_audience h.orderly x) fun p hp => hsole p ?_
    rw [hq]
    exact fun e => hp (Option.some.inj e).symm

/-- The doze observer passes every notice on, to the doze sink alone. -/
theorem Serves.doze_notice (h : w.Serves c g) {x : Stimulus} {n : Notice} (hm : x.message? = some (.notice n))
    (hx : .observer 0 ∈ w.audience x) :
    (w.effects x).filter (·.sink? = some .doze) = [.inform .doze n] := by
  rw [h.filter_effects hm, Service.source?, Option.elim_some, if_pos hx, effectsOf, h.member_doze]
  rfl

theorem Serves.flashlight_preference (h : w.Serves c g) {x : Stimulus} {q : Preference} {v : Bool}
    (hm : x.message? = some (.notice (.preference q v))) (hx : .observer 1 ∈ w.audience x) :
    (w.effects x).filter (·.sink? = some .flashlight) = [.inform .flashlight (.preference q v)] := by
  rw [h.filter_effects hm, Service.source?, Option.elim_some, if_pos hx, effectsOf, h.member_flashlight]
  rfl

theorem Serves.soleDisplay (h : w.Serves c g) : w.SoleDisplay Service.display := by
  intro p s hs hp
  have hcast : Service.cast c p = some s.member.role := by rw [← h.cast p, roleOf, hs, Option.map_some]
  cases hk : s.member with
  | observer o =>
    cases o with
    | attentive client mode window t =>
      rw [hk] at hcast
      exact absurd (Service.eq_display_of_cast hcast) hp
    | _ => rfl
  | _ => rfl

theorem Serves.isSome_standing (h : w.Serves c g) {p : Party} {ρ : Role} (hp : Service.cast c p = some ρ) :
    (w.standing p).isSome := by
  obtain ⟨k, hk, _⟩ := h.member hp
  rw [standing_eq hk]
  rfl

theorem Serves.doze_meet (h : w.Serves c g) {v : World} {x : Stimulus} (hv : w.meet .never x = .done v) :
    v.doze.Heeds (x.message?.elim g g.heard).screen := by
  have hsinks := (sinks_meet h.orderly hv).1
  rw [Sinks.foldl_feel] at hsinks
  have hdoze : v.doze = _ := congrArg (fun s => s.doze.1) hsinks
  rw [hdoze]
  by_cases hscreen : ∃ on, x.message? = some (.notice (.screen on))
  · obtain ⟨on, hm⟩ := hscreen
    have hx := h.orderly.mem_audience hm (h.isSome_standing (p := .observer 0) rfl)
    dsimp only
    rw [Doze.foldl_feel, h.doze_notice hm hx, hm]
    exact h.doze.screen w.now on
  · have hseen : (x.message?.elim g g.heard).screen = g.screen := by
      cases hm : x.message? with
      | none => rfl
      | some m =>
        cases m with
        | notice n =>
          cases n with
          | screen on => exact absurd ⟨on, hm⟩ hscreen
          | preference q v => rfl
        | _ => rfl
    rw [hseen]
    refine Doze.Heeds.foldl_feel (x := w.sinks.doze) h.doze (fun e he on hon => ?_) _ _
    subst hon
    obtain ⟨m, ρ, hm, hsends⟩ := sends_of_mem_effects he
    cases hsends
    exact hscreen ⟨on, hm⟩

theorem Serves.flashlight_meet (h : w.Serves c g) {v : World} {x : Stimulus} (hv : w.meet .never x = .done v) :
    v.flashlight.enabled = (x.message?.elim g g.heard).switches .flashlight := by
  have hsinks := (sinks_meet h.orderly hv).1
  rw [Sinks.foldl_feel] at hsinks
  have hflashlight : v.flashlight = _ := congrArg (fun s => s.flashlight.1) hsinks
  rw [hflashlight]
  by_cases hswitch : ∃ q on, x.message? = some (.notice (.preference q on))
  · obtain ⟨q, on, hm⟩ := hswitch
    have hx := h.orderly.mem_audience hm (h.isSome_standing (p := .observer 1) rfl)
    dsimp only
    rw [Flashlight.foldl_feel, h.flashlight_preference hm hx, hm]
    change (w.flashlight.prefer q on).enabled = if .flashlight = q then on else g.switches .flashlight
    unfold Flashlight.prefer
    by_cases hq : q = .flashlight
    · rw [if_pos hq, if_pos hq.symm]
    · rw [if_neg hq, if_neg (Ne.symm hq)]
      exact h.flashlight
  · have hseen : (x.message?.elim g g.heard).switches = g.switches := by
      cases hm : x.message? with
      | none => rfl
      | some m =>
        cases m with
        | notice n =>
          cases n with
          | screen on => rfl
          | preference q on => exact absurd ⟨q, on, hm⟩ hswitch
        | _ => rfl
    dsimp only
    rw [hseen, Flashlight.foldl_feel_fst]
    · exact h.flashlight
    · rintro e he q on rfl
      obtain ⟨m, ρ, hm, hsends⟩ := sends_of_mem_effects he
      cases hsends
      exact hswitch ⟨q, on, hm⟩

/-- The service serves on, whatever it meets. -/
theorem Serves.meet (h : w.Serves c g) (x : Stimulus) :
    ∃ v, w.meet .never x = .done v ∧ Met x w v ∧ v.Serves c (x.message?.elim g g.heard) := by
  obtain ⟨v, hv, hm⟩ := meet_never h.orderly x
  obtain ⟨v', hv', hf, _⟩ := h.toFollows.meet x
  rw [hv] at hv'
  cases hv'
  refine ⟨v, hv, hm, ⟨hf, fun p => ?_, fun p s hs => ?_, fun p hp t => ?_, hm.proper h.proper,
    hm.drawer _ h.soleDisplay h.drawer, ?_, h.doze_meet hv, h.flashlight_meet hv⟩⟩
  · rw [← h.cast p, roleOf, hm.standing, roleOf]
    cases w.standing p with
    | none => rfl
    | some s => exact congrArg some (s.fixed_met Member.fixed_role w.now p x)
  · rw [hm.standing] at hs
    obtain ⟨t, ht, rfl⟩ := Option.map_eq_some_iff.mp hs
    exact (h.balanced p t ht).met w.now p x
  · rw [hm.standing] at hp
    have hnone : w.standing p = none := Option.map_eq_none_iff.mp hp
    rw [hm.outsider p hnone, h.outsider p hnone]
  · rw [(sinks_meet h.orderly hv).2]
    exact prepare_screen h.screen x

theorem Serves.run (h : w.Serves c g) (l : List Stimulus) :
    ∃ v, w.run .never l = .done v ∧ v.Serves c (g.after l) := by
  induction l using List.reverseRecOn with
  | nil => exact ⟨w, rfl, h⟩
  | append_singleton l x ih =>
    obtain ⟨u, hu, hs⟩ := ih
    obtain ⟨v, hv, _, hs'⟩ := hs.meet x
    refine ⟨v, run_snoc hu hv, ?_⟩
    rwa [Signals.after_snoc]

end World

namespace Service

variable (c : Config) (p : Preferences) (start : Instant)

theorem serves_assemble : (assemble c p start).Serves c ⟨none, false, .idle, p.get⟩ where
  toFollows := follows_assemble c p start
  cast q := by
    rw [assemble_eq]
    cases q with
    | observer i =>
      match i with
      | 0 | 1 | 2 | 3 | 4 | 5 => rfl
      | n + 6 => rfl
    | _ => rfl
  balanced q s hs := by
    rw [assemble_eq] at hs
    cases q with
    | observer i =>
      match i with
      | 0 | 1 | 2 | 3 | 4 =>
        cases hs
        exact ⟨trivial, Holding.each rfl rfl rfl rfl rfl, fun t => by cases t <;> rfl⟩
      | 5 =>
        cases hs
        refine ⟨?_, Holding.each rfl rfl rfl rfl rfl, fun t => by cases t <;> rfl⟩
        rintro _ ⟨⟩
        exact ⟨rfl, fun _ => rfl⟩
      | n + 6 => cases hs
    | alarm =>
      cases hs
      exact ⟨trivial, Holding.each rfl rfl rfl rfl rfl, fun t => by cases t <;> rfl⟩
    | call =>
      cases hs
      exact ⟨trivial, Holding.each rfl rfl rfl rfl rfl, fun t => by cases t <;> rfl⟩
    | doze => cases hs
    | flashlight => cases hs
  outsider q hq t := by
    have hne : q ≠ .observer 1 := by
      rintro rfl
      rw [assemble_eq] at hq
      cases hq
    rw [assemble_eq, World.hears]
    simp [hne]
  proper := by
    rw [assemble_eq]
    intro e he
    rw [List.mem_singleton.mp he]
    exact Or.inr ⟨rfl, fun o ho => by cases ho⟩
  drawer := by
    rw [assemble_eq]
    intro e he hpower
    rw [List.mem_singleton.mp he] at hpower
    exact absurd rfl hpower
  screen := by rw [assemble_eq]
  doze := by
    rw [assemble_eq]
    exact ⟨_, rfl, rfl⟩
  flashlight := by rw [assemble_eq]; rfl

/-- What the service is told at its start. -/
def wake (interactive : Bool) : Stimulus := .event (if interactive then .screenOn else .screenOff)

/-- A valid configuration starts the service, which then knows the screen and the switches
in force. -/
theorem start_serves {c : Config} (hc : c.check = .ok c) (store : PreferenceStore) (interactive : Bool) (now : Instant) :
    ∃ w, Service.start c store interactive now = .ok ⟨c, c.preferences.overlay store, w⟩ ∧
      (assemble c (c.preferences.overlay store) now).meet .never (wake interactive) = .done w ∧
      w.Serves c ⟨some interactive, false, .idle, fun q => (store.get? q.key).getD (c.preferences.get q)⟩ := by
  have hassemble := serves_assemble c (c.preferences.overlay store) now
  rw [Preferences.overlay, funext (Preferences.get_ofFunction _), ← Preferences.overlay] at hassemble
  obtain ⟨w, hw, _, hs⟩ := hassemble.meet (wake interactive)
  have hturned : (assemble c (c.preferences.overlay store) now).screenTurned .never interactive = .done w := by
    cases interactive <;> exact hw
  refine ⟨w, ?_, hw, ?_⟩
  · rw [Service.start, hc]
    dsimp only
    rw [hturned]
    rfl
  · cases interactive <;> exact hs

end Service

end GestureActions
