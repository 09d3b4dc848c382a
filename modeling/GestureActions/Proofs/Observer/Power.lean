import GestureActions.Proofs.Observer.Stakes

/-! # Who asks for what

What a routine never asks for, its sentry never asks for either. The wake holds are asked
for by attentive displays alone, and the outputs by the silencers and the sinks.
-/
namespace GestureActions

open Request

/-- A routine all of whose requests are of a kind. -/
structure Routine.Asks {κ : Type} (P : Request → Prop) (r : Routine κ) : Prop where
  arm : ∀ now k, ∀ q ∈ (r.arm now k).2, P q
  disarm : ∀ k, ∀ q ∈ (r.disarm k).2, P q
  relax : ∀ k, ∀ q ∈ (r.relax k).2, P q
  ahead : ∀ x, ∀ q ∈ r.ahead x, P q
  hear : ∀ enabled now x k, ∀ q ∈ (r.hear enabled now x k).2.1, P q
  after : ∀ enabled now x k, ∀ q ∈ (r.hear enabled now x k).2.2.flatMap Effect.requests, P q

section Sentries

variable {κ : Type} {P : Request → Prop} {r : Routine κ}

theorem Duty.Changes.asks {now : Instant} {d : Duty κ} {c : Duty κ × List Request} (hc : Changes r now d c)
    (h : r.Asks P) : ∀ q ∈ c.2, P q := by
  cases hc with
  | rest => exact List.forall_mem_nil _
  | arm ha => exact h.arm now d.core
  | disarm ha => exact h.disarm d.core
  | relax ha => exact h.relax d.core

theorem Sentry.Responds.asks {now : Instant} {s : Sentry κ} {a : Reaction Effect (Sentry κ)}
    (ha : s.Responds r now a) (h : r.Asks P) : ∀ q ∈ a.requests, P q := by
  cases ha with
  | still => exact List.forall_mem_nil _
  | switch on hd => exact List.forall_mem_nil _
  | change on present hd hc =>
    intro q hq
    refine hc.asks h q ?_
    simpa [Reaction.requests] using hq

theorem Sentry.asks_hear (h : r.Asks P) (now : Instant) (x : Reading) (s : Sentry κ) :
    ∀ q ∈ (s.hear r now x).requests, P q := by
  intro q hq
  have hstill : q ∈ (Reaction.asking (r.ahead x) s).requests → P q := by
    intro hq
    refine h.ahead x q ?_
    simpa [Reaction.asking, Reaction.requests] using hq
  unfold hear at hq
  split at hq
  · exact hstill hq
  · rename_i d _
    split at hq
    · rcases List.mem_append.mp hq with hq | hq
      · rcases List.mem_append.mp hq with hq | hq
        · exact h.ahead x q hq
        · exact h.hear s.enabled now x d.core q hq
      · exact h.after s.enabled now x d.core q hq
    · exact hstill hq

end Sentries

def Request.power? (q : Request) : Option PowerCall :=
  match q with
  | .power c => some c
  | _ => none

/-- A request that leaves the wake holds alone. -/
def Request.IsUnpowered (q : Request) : Prop := q.power? = none

/-- A request of a party that may or may not ask for wake holds, and has at most one output
to ask for. -/
def Request.Suits (display : Bool) (voice : Option Output) : Request → Prop
  | power _ => display = true
  | output o => voice = some o
  | _ => True

theorem Request.Suits.unpowered {voice : Option Output} {q : Request} (h : q.Suits false voice) : q.IsUnpowered := by
  cases q with
  | power c => cases h
  | _ => rfl

theorem Sink.suits_fire (s : Sink) : ∀ q ∈ (Effect.fire s).requests, q.Suits false none := by
  intro q hq
  cases s with
  | counter => rw [List.mem_singleton.mp hq]; trivial
  | _ => exact absurd hq List.not_mem_nil

theorem Pickup.suits (sink : Sink) : (routine sink).Asks (Suits false none) where
  arm now k := by simp [routine, Suits]
  disarm k := by simp [routine, Suits]
  relax k := List.forall_mem_nil _
  ahead x := by simp [routine]
  hear enabled now x k := by
    simp only [routine, hear]
    split <;> simp
  after enabled now x k := by
    simp only [routine, hear]
    split
    · dsimp only
      split
      · simpa using sink.suits_fire
      · simp
    · simp
    · simp

theorem Unstow.suits (sink : Sink) : (routine sink).Asks (Suits false none) where
  arm now k := by simp [routine, Suits]
  disarm k := by simp [routine, Suits]
  relax k := List.forall_mem_nil _
  ahead x := by simp [routine]
  hear enabled now x k := by
    simp only [routine, hear]
    split <;> simp
  after enabled now x k := by
    simp only [routine, hear]
    split
    · dsimp only
      split
      · simpa using sink.suits_fire
      · simp
    · simp

theorem Approach.suits (c : Client) (sink : Sink) : (routine c sink).Asks (Suits false none) where
  arm now k := by simp [routine, Suits]
  disarm k := by simp [routine, Suits]
  relax k := List.forall_mem_nil _
  ahead x := by simp [routine]
  hear enabled now x k := by simp [routine]
  after enabled now x k := by
    simp only [routine]
    split
    · simpa using sink.suits_fire
    · simp

namespace Attentive

theorem suits_powered (c : ScreenLock.Change) : ∀ q ∈ powered c, q.Suits true none := by
  intro q hq
  obtain ⟨p, _, rfl⟩ := List.mem_map.mp hq
  rfl

theorem suits_unlisten (a : Attentive) : ∀ q ∈ a.unlisten.2, q.Suits true none := by
  unfold unlisten
  split <;> simp [Suits]

theorem suits_listen (a : Attentive) : ∀ q ∈ a.listen.2, q.Suits true none := by
  unfold listen
  split <;> simp [Suits]

theorem suits_letGo (now : Instant) (a : Attentive) : ∀ q ∈ (a.letGo now).2, q.Suits true none :=
  List.forall_mem_append.mpr ⟨suits_powered _, suits_unlisten _⟩

theorem suits_simpleGesture (enabled : Bool) (now : Instant) (a : Attentive) (g : Gesture) :
    ∀ q ∈ (a.simpleGesture enabled now g).2, q.Suits true none := by
  unfold simpleGesture
  split
  · split
    · dsimp only
      split
      · exact List.forall_mem_append.mpr ⟨suits_powered _, suits_listen _⟩
      · exact List.forall_mem_nil _
    · exact List.forall_mem_nil _
  · exact suits_letGo now _
  · exact List.forall_mem_nil _

theorem suits_simpleStow (window : Span) (now : Instant) (a : Attentive) (stowed : Bool) :
    ∀ q ∈ (a.simpleStow window now stowed).2, q.Suits true none := by
  unfold simpleStow
  split
  · exact List.forall_mem_nil _
  · split
    · exact suits_unlisten a
    · dsimp only
      split
      · exact suits_letGo now _
      · exact List.forall_mem_nil _

theorem suits_mergedGesture (enabled : Bool) (now : Instant) (a : Attentive) (g : Gesture) :
    ∀ q ∈ (a.mergedGesture enabled now g).2, q.Suits true none := by
  unfold mergedGesture
  split
  · split
    · exact suits_powered _
    · exact List.forall_mem_nil _
  · exact suits_powered _
  · exact List.forall_mem_nil _

theorem suits_hear (mode : AttentiveMode) (window : Span) (enabled : Bool) (now : Instant) (r : Reading)
    (a : Attentive) : ∀ q ∈ (a.hear mode window enabled now r).2, q.Suits true none := by
  unfold hear
  split
  · split
    · exact List.forall_mem_nil _
    · cases mode with
      | simple => exact suits_simpleGesture enabled now a _
      | stateMerge => exact suits_mergedGesture enabled now a _
  · split
    · exact List.forall_mem_nil _
    · cases mode with
      | simple => exact suits_simpleStow window now a _
      | stateMerge => exact suits_powered _
  · exact List.forall_mem_nil _

theorem suits (c : Client) (mode : AttentiveMode) (window : Span) :
    (routine c mode window).Asks (Suits true none) where
  arm now k := by cases mode <;> simp [routine, arm, Suits]
  disarm k := by
    refine List.forall_mem_append.mpr ⟨?_, suits_powered _⟩
    split <;> simp [Suits]
  relax k := suits_powered _
  ahead x := by simp [routine, Suits]
  hear enabled now x k := suits_hear mode window enabled now x k
  after enabled now x k := List.forall_mem_nil _

end Attentive

def AlarmSilencer.voice : Output := .broadcast AlarmAction.snooze.action

theorem AlarmSilencer.suits (c : Client) : (routine c).Asks (Suits false (some voice)) where
  arm now k := by simp [routine, Suits]
  disarm k := by simp [routine, Suits]
  relax k := List.forall_mem_nil _
  ahead x := by
    simp only [routine]
    split <;> simp [Suits]
  hear enabled now x k := by simp [routine]
  after enabled now x k := by
    simp only [routine, hear]
    split <;> simp [Effect.requests, Suits, voice]

theorem Line.Changes.suits {c : Client} {now : Instant} {l : Line} {b : Line × List Request}
    (hb : Changes c now l b) : ∀ q ∈ b.2, q.Suits false (some .silence) := by
  cases hb with
  | rest => exact List.forall_mem_nil _
  | takeUp hl => simp [Suits]
  | drop hl => simp [Suits]

namespace CallSilencer

theorem Responds.suits {c : Client} {now : Instant} {s : CallSilencer} {a : Reaction Effect CallSilencer}
    (ha : s.Responds c now a) : ∀ q ∈ a.requests, q.Suits false (some .silence) := by
  cases ha with
  | still => exact List.forall_mem_nil _
  | switch on hl => exact List.forall_mem_nil _
  | change on state hl hb =>
    intro q hq
    refine hb.suits q ?_
    simpa [Reaction.requests] using hq

theorem suits_hear (now : Instant) (x : Reading) (s : CallSilencer) :
    ∀ q ∈ (s.hear now x).requests, q.Suits false (some .silence) := by
  unfold hear
  split
  · simp only [Reaction.requests]
    split <;> simp [Effect.requests, Suits]
  · exact List.forall_mem_nil _

end CallSilencer

namespace Member

def isDisplay : Member → Bool
  | observer (.attentive _ _ _ _) => true
  | _ => false

/-- The output a member asks for in its own name. -/
def voice? : Member → Option Output
  | observer _ => none
  | alarm _ _ => some AlarmSilencer.voice
  | call _ _ => some .silence

theorem fixed_isDisplay : Fixed isDisplay :=
  ⟨fun _ _ _ => rfl, fun _ _ _ => rfl, fun _ _ _ _ => rfl, fun _ _ _ _ _ => rfl, fun _ _ _ => rfl, fun _ _ _ => rfl⟩

theorem suits_notice (now : Instant) (n : Notice) (o : Observer) :
    ∀ q ∈ (o.notice now n).requests, q.Suits (observer o).isDisplay none := by
  cases o with
  | doze => exact List.forall_mem_nil _
  | flashlight sink => cases n <;> exact List.forall_mem_nil _
  | pickup sink s => exact (s.responds_notice _ false now n).asks (Pickup.suits sink)
  | unstow sink s => exact (s.responds_notice _ false now n).asks (Unstow.suits sink)
  | approach c sink s => exact (s.responds_notice _ false now n).asks (Approach.suits c sink)
  | attentive c mode window s => exact (s.responds_notice _ true now n).asks (Attentive.suits c mode window)
  | recorder name =>
    intro q hq
    rw [List.mem_singleton.mp hq]
    trivial

theorem suits_hear (now : Instant) (x : Reading) (o : Observer) :
    ∀ q ∈ (o.hear now x).requests, q.Suits (observer o).isDisplay none := by
  cases o with
  | doze => exact List.forall_mem_nil _
  | flashlight sink =>
    simp only [Observer.hear]
    split
    · change ∀ q ∈ [Effect.fire sink].flatMap Effect.requests, q.Suits false none
      simpa using sink.suits_fire
    · exact List.forall_mem_nil _
  | pickup sink s => exact Sentry.asks_hear (Pickup.suits sink) now x s
  | unstow sink s => exact Sentry.asks_hear (Unstow.suits sink) now x s
  | approach c sink s => exact Sentry.asks_hear (Approach.suits c sink) now x s
  | attentive c mode window s => exact Sentry.asks_hear (Attentive.suits c mode window) now x s
  | recorder name => exact List.forall_mem_nil _

/-- Only an attentive display asks for wake holds, and only the silencers for an output. -/
theorem suits_react (now : Instant) (m : Message) (k : Member) :
    ∀ q ∈ (k.react now m).requests, q.Suits k.isDisplay k.voice? := by
  have hstill : ∀ k : Member, ∀ q ∈ (Reaction.still (ε := Effect) k).requests, q.Suits k.isDisplay k.voice? :=
    fun k => List.forall_mem_nil _
  cases k with
  | observer o =>
    cases m with
    | notice n => exact suits_notice now n o
    | reading x => exact suits_hear now x o
    | _ => exact hstill _
  | alarm c s =>
    cases m with
    | notice n =>
      cases n with
      | screen on => exact hstill _
      | preference p on => exact (s.responds_prefer _ now p on).asks (AlarmSilencer.suits c)
    | ringing on => exact (s.responds_signal _ now on).asks (AlarmSilencer.suits c)
    | line l => exact hstill _
    | reading x => exact s.asks_hear (AlarmSilencer.suits c) now x
  | call c s =>
    cases m with
    | notice n =>
      cases n with
      | screen on => exact hstill _
      | preference p on => exact (s.responds_prefer c now p on).suits
    | ringing on => exact hstill _
    | line l => exact (s.responds_callState c now l).suits
    | reading x => exact s.suits_hear now x

theorem unpowered_react (now : Instant) (m : Message) {k : Member} (h : k.isDisplay = false) :
    ∀ q ∈ (k.react now m).requests, q.IsUnpowered := by
  intro q hq
  have hsuits := k.suits_react now m q hq
  rw [h] at hsuits
  exact hsuits.unpowered

end Member

end GestureActions
