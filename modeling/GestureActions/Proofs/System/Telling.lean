import GestureActions.Proofs.Observer.Roles
import GestureActions.Proofs.System.Affairs

/-! # A member that is told a message

A member asks what its answer says, in its own name, and becomes what its answer makes
of it. The sinks it fires or informs ask in theirs, but nothing that moves a
registration, a vote or a wake hold.
-/
namespace GestureActions

open Request

/-- A request that moves neither registrations nor votes. -/
def Request.IsQuiet (p : Party) (q : Request) : Prop := q = .readClock ∨ ∃ o, p.Says o ∧ q = .output o

namespace Doze

theorem quiet_fire (screenOn : Bool) (now : Instant) (d : Doze) :
    ∀ q ∈ (d.fire screenOn now).before ++ (d.fire screenOn now).during ++ (d.fire screenOn now).after,
      q.IsQuiet .doze := by
  intro q hq
  unfold fire at hq
  split at hq
  · simp [Reaction.still] at hq
  · split at hq
    · exact Or.inl (by simpa [Reaction.asking] using hq)
    · split at hq
      · rcases List.mem_append.mp hq with hq | hq
        · exact Or.inl (by simpa using hq)
        · exact Or.inr ⟨_, rfl, List.mem_singleton.mp hq⟩
      · exact Or.inl (by simpa [Reaction.asking] using hq)

theorem quiet_screen (now : Instant) (on : Bool) (d : Doze) :
    ∀ q ∈ (d.screen now on).before ++ (d.screen now on).during ++ (d.screen now on).after,
      q.IsQuiet .doze := by
  intro q hq
  unfold screen at hq
  split at hq
  · simp [Reaction.still] at hq
  · split at hq
    · simp [Reaction.still] at hq
    · split at hq
      · simp [Reaction.still] at hq
      · exact Or.inl (by simpa using hq)

end Doze

theorem Flashlight.quiet_fire (f : Flashlight) : ∀ q ∈ f.fire, q.IsQuiet .flashlight := by
  intro q hq
  unfold fire at hq
  split at hq
  · rcases List.mem_cons.mp hq with hq | hq
    · exact Or.inr ⟨_, Or.inr ⟨_, rfl⟩, hq⟩
    · exact Or.inr ⟨_, Or.inl rfl, List.mem_singleton.mp hq⟩
  · exact absurd hq List.not_mem_nil

theorem Entry.Of.ofSink {s : Party} {qs : List Request} (hs : ¬ s.IsMember) (hq : ∀ q ∈ qs, q.IsQuiet s) {e : Entry}
    (he : e.Of s qs) : e.OfSink := by
  obtain ⟨hp, q, hm, hy⟩ := he
  refine ⟨hp ▸ hs, ?_⟩
  rcases hq q hm with rfl | ⟨o, ho, rfl⟩
  · rcases hy with hy | ⟨hy, _⟩
    · exact Or.inl (Option.some.inj hy).symm
    · cases hy
  · rcases hy with hy | ⟨hy, _⟩
    · exact Or.inr ⟨o, hp ▸ ho, (Option.some.inj hy).symm⟩
    · cases hy

namespace World

theorem moved_nil (p : Party) {w v : World} (hc : v.clock = w.clock) (hs : v.screen = w.screen)
    (ho : v.order = w.order) (hr : v.registry = w.registry) (hp : v.poll = w.poll) (hl : v.log = w.log) :
    Moved p [] w v where
  clock := hc
  screen := hs
  order := ho
  hears q s := by simp [World.hears, hr]
  vote c := by simp [hp]
  calls q _ := by simp [callsOf, hl]
  nodup h := hr ▸ h
  adds := adds_of_log hl

theorem worked_nil (p : Party) {w v : World} (hc : v.clock = w.clock) (hs : v.screen = w.screen)
    (ho : v.order = w.order) (hr : v.registry = w.registry) (hp : v.poll = w.poll) (hl : v.log = w.log) :
    Worked p [] w v where
  toMoved := moved_nil p hc hs ho hr hp hl
  inStep h := ⟨hp ▸ h.sound, by rw [hl, hp]; exact h.setting⟩
  drawer _ _ h := by rwa [SoleDrawer, hl]

/-- The quiet requests of a sink move nobody's affairs. -/
theorem Moved.aside {s : Party} {qs : List Request} {w v : World} (h : Moved s qs w v)
    (hs : ¬ s.IsMember) (hq : ∀ q ∈ qs, q.IsQuiet s) (p : Party) : Moved p [] w v := by
  have hvotes : votes qs = [] := by
    refine List.filterMap_eq_nil_iff.mpr fun q hm => ?_
    rcases hq q hm with rfl | ⟨o, _, rfl⟩ <;> rfl
  have hears : ∀ t held, qs.foldl (Request.hears t) held = held := by
    intro t held
    clear h hvotes
    induction qs with
    | nil => rfl
    | cons q r ih =>
      have hstep : Request.hears t held q = held := by
        rcases hq q List.mem_cons_self with rfl | ⟨o, _, rfl⟩ <;> rfl
      rw [List.foldl_cons, hstep]
      exact ih fun a ha => hq a (List.mem_cons_of_mem q ha)
  exact {
    clock := h.clock
    screen := h.screen
    order := h.order
    hears := fun q t => by
      rw [h.hears, hears, ite_self, List.foldl_nil, ite_self]
    vote := fun c => by rw [h.vote, hvotes, votes_nil]
    calls := fun q hm => by
      have hne : q ≠ s := fun e => hs (e ▸ hm)
      rw [h.calls q hm, if_neg hne, List.filterMap_nil, List.append_nil, ite_self]
    nodup := h.nodup
    adds := h.adds.mono fun e he => Or.inr (he.elim (Entry.Of.ofSink hs hq) id) }

theorem Worked.aside {s : Party} {qs : List Request} {w v : World} (h : Worked s qs w v)
    (hs : ¬ s.IsMember) (hq : ∀ q ∈ qs, q.IsQuiet s) (p : Party) : Worked p [] w v where
  toMoved := h.toMoved.aside hs hq p
  inStep := h.inStep
  drawer r _ := by
    refine h.drawer r (Or.inr fun q hm => ?_)
    rcases hq q hm with rfl | ⟨o, _, rfl⟩ <;> rfl

theorem carryOutDoze_never (p : Party) {r : Reaction Request Doze}
    (hq : ∀ q ∈ r.before ++ r.during ++ r.after, q.IsQuiet .doze) (w : World) :
    ∃ v, w.carryOutDoze .never r = .done v ∧ Worked p [] w v ∧ SameMembers w v := by
  obtain ⟨u, v, hv, hwu, hmu, hwv, hmv⟩ :=
    carryOut_never (p := .doze) (r := r) putDoze (fun q _ => perform_never .doze q) w
  rw [List.flatMap_singleton'] at hwv
  have hput : Worked p [] u (putDoze r.next u) := worked_nil p rfl rfl rfl rfl rfl rfl
  have hbefore := hwu.aside (fun h => h.1 rfl) (fun q h => hq q (List.mem_append_left _ h)) p
  have hafter := hwv.aside (fun h => h.1 rfl) (fun q h => hq q (List.mem_append_right _ h)) p
  refine ⟨v, hv, (hbefore.trans hput).trans hafter, (hmu.trans fun q => ?_).trans hmv⟩
  cases q <;> rfl

theorem effect_never (p : Party) (e : Effect) (w : World) :
    ∃ v, w.effect .never p e = .done v ∧ Worked p e.requests w v ∧ SameMembers w v := by
  cases e with
  | ask q => exact perform_never p q w
  | fire s =>
    cases s with
    | doze => exact carryOutDoze_never p (Doze.quiet_fire _ _ _) w
    | flashlight =>
      obtain ⟨v, hv, hw, hm⟩ := performAll_never .flashlight w.flashlight.fire w
      exact ⟨v, hv, hw.aside (fun h => h.2 rfl) w.flashlight.quiet_fire p, hm⟩
    | counter => exact perform_never p .act w
  | inform s n =>
    cases s with
    | doze =>
      cases n with
      | screen on => exact carryOutDoze_never p (Doze.quiet_screen _ _ _) w
      | preference q v => exact ⟨w, rfl, Worked.refl p w, fun _ => rfl⟩
    | flashlight =>
      cases n with
      | screen on => exact ⟨w, rfl, Worked.refl p w, fun _ => rfl⟩
      | preference q v =>
        exact ⟨_, rfl, worked_nil p rfl rfl rfl rfl rfl rfl, sameMembers_of_parts rfl rfl rfl⟩
    | counter => exact ⟨w, rfl, Worked.refl p w, fun _ => rfl⟩

theorem member?_isMember {w : World} {p : Party} {k : Member} (h : w.member? p = some k) : p.IsMember := by
  cases p with
  | observer i => exact Party.isMember_observer i
  | alarm => exact Party.isMember_alarm
  | call => exact Party.isMember_call
  | doze => cases h
  | flashlight => cases h

theorem allowed_of_voice? {w : World} {p : Party} {k : Member} (h : w.member? p = some k) {o : Output}
    (ho : k.voice? = some o) : p.Says o := by
  cases p with
  | observer i =>
    obtain ⟨x, _, rfl⟩ := Option.map_eq_some_iff.mp h
    cases ho
  | alarm =>
    obtain ⟨v, _, rfl⟩ := Option.map_eq_some_iff.mp h
    exact (Option.some.inj ho).symm
  | call =>
    obtain ⟨v, _, rfl⟩ := Option.map_eq_some_iff.mp h
    exact (Option.some.inj ho).symm
  | doze => cases h
  | flashlight => cases h

/-- A member that has become another one of its role sits where it sat. -/
theorem member?_seat {w u : World} {p : Party} {k k' : Member} (h : w.member? p = some k) (hk : k'.role = k.role)
    (hm : SameMembers w u) (q : Party) : (u.seat p k').member? q = if q = p then some k' else w.member? q := by
  rw [← hm q]
  rw [← hm p] at h
  cases p with
  | observer i =>
    obtain ⟨o, ho, rfl⟩ := Option.map_eq_some_iff.mp h
    obtain ⟨o', rfl⟩ := Member.eq_observer_of_role hk
    cases q with
    | observer j =>
      by_cases hj : j = i
      · subst hj
        have hl := (List.getElem?_eq_some_iff.mp ho).1
        simp [seat, putObserver, member?, hl]
      · simp [seat, putObserver, member?, hj, Ne.symm hj]
    | _ => rfl
  | alarm =>
    obtain ⟨v, hv, rfl⟩ := Option.map_eq_some_iff.mp h
    obtain ⟨s', rfl⟩ := Member.eq_alarm_of_role hk
    cases q <;> rfl
  | call =>
    obtain ⟨v, hv, rfl⟩ := Option.map_eq_some_iff.mp h
    obtain ⟨s', rfl⟩ := Member.eq_call_of_role hk
    cases q <;> rfl
  | doze => cases h
  | flashlight => cases h

theorem worked_seat (p q : Party) (k : Member) (w : World) : Worked p [] w (w.seat q k) := by
  unfold seat
  split <;> exact worked_nil p rfl rfl rfl rfl rfl rfl

/-- A member that is told a message asks what its answer asks and becomes what it says. -/
theorem tell_never {w : World} {p : Party} {k : Member} (h : w.member? p = some k) (m : Message) :
    ∃ v, w.tell .never m p = .done v ∧ Worked p (k.react w.now m).requests w v ∧
      ∀ q, v.member? q = if q = p then some (k.react w.now m).next else w.member? q := by
  obtain ⟨u, v, hv, hwu, hmu, hwv, hmv⟩ :=
    carryOut_never (r := k.react w.now m) (seat p) (fun e _ => effect_never p e) w
  refine ⟨v, ?_, ?_, fun q => ?_⟩
  · rw [tell, h]
    exact hv
  · have hw := (hwu.trans (worked_seat p p _ u)).trans hwv
    rwa [List.append_nil] at hw
  · rw [hmv q]
    exact member?_seat h (k.role_react w.now m) hmu q

end World

end GestureActions
