import GestureActions.Proofs.Observer.Duties
import GestureActions.Proofs.System.Members

/-! # When members vote

A member that votes at all has one client, one vote for being armed and one for not being
armed. It votes exactly when an answer arms or disarms it, once, and readings never do.
-/
namespace GestureActions

namespace Request

def vote? : Request → Option (Client × Vote)
  | vote c v => some (c, v)
  | _ => none

def votes (qs : List Request) : List (Client × Vote) := qs.filterMap vote?

@[simp] theorem votes_nil : votes [] = [] := rfl

@[simp] theorem votes_append (qs rs : List Request) : votes (qs ++ rs) = votes qs ++ votes rs :=
  List.filterMap_append

end Request

open Request

/-- What an effect asks in the name of the party itself. -/
def Effect.requests : Effect → List Request
  | ask q => [q]
  | fire .counter => [.act]
  | _ => []

def Reaction.requests {σ : Type} (r : Reaction Effect σ) : List Request :=
  r.before ++ r.during ++ r.after.flatMap Effect.requests

/-- The client a member votes as, and its votes for being armed and for not being armed. -/
structure Stake where
  client : Client
  up : Vote
  down : Vote
  deriving DecidableEq, Repr

namespace Stake

def vote (b : Stake) (armed : Bool) : Vote := if armed then b.up else b.down

/-- The votes of a member that was armed or not and now is or is not. -/
def cast (b : Option Stake) (was is : Bool) : List (Client × Vote) :=
  if is = was then [] else (b.map fun b => (b.client, b.vote is)).toList

@[simp] theorem cast_self (b : Option Stake) (armed : Bool) : cast b armed armed = [] := by
  simp [cast]

end Stake

section Sentries

variable {κ : Type} {r : Routine κ} {b : Option Stake}

/-- A routine that votes when it arms and when it disarms, and never else. -/
structure Routine.Stakes (r : Routine κ) (b : Option Stake) : Prop where
  arm : ∀ now k, votes (r.arm now k).2 = Stake.cast b false true
  disarm : ∀ k, votes (r.disarm k).2 = Stake.cast b true false
  relax : ∀ k, votes (r.relax k).2 = []
  ahead : ∀ x, votes (r.ahead x) = []
  hear : ∀ enabled now x k, votes (r.hear enabled now x k).2.1 = []
  after : ∀ enabled now x k, votes ((r.hear enabled now x k).2.2.flatMap Effect.requests) = []

theorem Duty.Changes.votes {now : Instant} {d : Duty κ} {c : Duty κ × List Request} (hc : Changes r now d c)
    (h : r.Stakes b) : votes c.2 = Stake.cast b d.armed c.1.armed := by
  cases hc with
  | rest => exact (Stake.cast_self b d.armed).symm
  | arm ha =>
    rw [ha]
    exact h.arm now d.core
  | disarm ha =>
    rw [ha]
    exact h.disarm d.core
  | relax ha => exact (h.relax d.core).trans (Stake.cast_self b d.armed).symm

theorem Sentry.Responds.votes {now : Instant} {s : Sentry κ} {a : Reaction Effect (Sentry κ)}
    (ha : s.Responds r now a) (h : r.Stakes b) : votes a.requests = Stake.cast b s.isArmed a.next.isArmed := by
  cases ha with
  | still => simp [Reaction.still, Reaction.requests]
  | switch on hd => simp [Reaction.still, Reaction.requests, isArmed, hd]
  | change on present hd hc =>
    have hv := hc.votes h
    simp [Reaction.requests, isArmed, hd, hv]

theorem Sentry.isArmed_hear (r : Routine κ) (now : Instant) (x : Reading) (s : Sentry κ) :
    (s.hear r now x).next.isArmed = s.isArmed := by
  obtain ⟨enabled, duty⟩ := s
  cases duty with
  | none => rfl
  | some d =>
    simp only [hear]
    split
    · rfl
    · rfl

theorem Sentry.votes_hear (h : r.Stakes b) (now : Instant) (x : Reading) (s : Sentry κ) :
    votes (s.hear r now x).requests = [] := by
  obtain ⟨enabled, duty⟩ := s
  cases duty with
  | none => simp [hear, Reaction.asking, Reaction.requests, h.ahead x]
  | some d =>
    simp only [hear]
    split
    · simp [Reaction.requests, h.ahead x, h.hear enabled now x d.core, h.after enabled now x d.core]
    · simp [Reaction.asking, Reaction.requests, h.ahead x]

end Sentries

namespace Attentive

@[simp] theorem votes_powered (c : ScreenLock.Change) : votes (powered c) = [] := by
  simp [powered, votes, List.filterMap_map, vote?]

@[simp] theorem votes_listen (a : Attentive) : votes a.listen.2 = [] := by
  unfold listen
  split <;> rfl

@[simp] theorem votes_unlisten (a : Attentive) : votes a.unlisten.2 = [] := by
  unfold unlisten
  split <;> rfl

@[simp] theorem votes_letGo (now : Instant) (a : Attentive) : votes (a.letGo now).2 = [] := by
  simp [letGo]

@[simp] theorem votes_decide (now : Instant) (a : Attentive) : votes (a.decide now).2 = [] := by
  simp [decide]

theorem votes_simpleGesture (enabled : Bool) (now : Instant) (a : Attentive) (g : Gesture) :
    votes (a.simpleGesture enabled now g).2 = [] := by
  unfold simpleGesture
  split
  · split
    · dsimp only
      split <;> simp
    · rfl
  · simp
  · rfl

theorem votes_simpleStow (window : Span) (now : Instant) (a : Attentive) (stowed : Bool) :
    votes (a.simpleStow window now stowed).2 = [] := by
  unfold simpleStow
  split
  · rfl
  · split
    · simp
    · dsimp only
      split <;> simp

theorem votes_mergedGesture (enabled : Bool) (now : Instant) (a : Attentive) (g : Gesture) :
    votes (a.mergedGesture enabled now g).2 = [] := by
  unfold mergedGesture
  split
  · split <;> simp
  · simp
  · rfl

theorem votes_hear (mode : AttentiveMode) (window : Span) (enabled : Bool) (now : Instant) (r : Reading)
    (a : Attentive) : votes (a.hear mode window enabled now r).2 = [] := by
  unfold hear
  split
  · split
    · rfl
    · cases mode with
      | simple => exact votes_simpleGesture enabled now a _
      | stateMerge => exact votes_mergedGesture enabled now a _
  · split
    · rfl
    · cases mode with
      | simple => exact votes_simpleStow window now a _
      | stateMerge => exact votes_decide now _
  · rfl

def stake (c : Client) (mode : AttentiveMode) : Stake := ⟨c, vote mode, .withdrawn⟩

theorem stakes (c : Client) (mode : AttentiveMode) (window : Span) :
    (routine c mode window).Stakes (some (stake c mode)) where
  arm now k := by cases mode <;> rfl
  disarm k := by
    simp only [routine, disarm, release, votes_append, votes_powered]
    split <;> rfl
  relax k := votes_powered _
  ahead x := rfl
  hear enabled now x k := votes_hear mode window enabled now x k
  after enabled now x k := rfl

end Attentive

theorem Pickup.stakes (sink : Sink) : (routine sink).Stakes none where
  arm now k := rfl
  disarm k := rfl
  relax k := rfl
  ahead x := rfl
  hear enabled now x k := by
    simp only [routine, hear]
    split <;> rfl
  after enabled now x k := by
    simp only [routine, hear]
    split
    · dsimp only
      split
      · cases sink <;> rfl
      · rfl
    · rfl
    · rfl

theorem Unstow.stakes (sink : Sink) : (routine sink).Stakes none where
  arm now k := rfl
  disarm k := rfl
  relax k := rfl
  ahead x := rfl
  hear enabled now x k := by
    simp only [routine, hear]
    split <;> rfl
  after enabled now x k := by
    simp only [routine, hear]
    split
    · dsimp only
      split
      · cases sink <;> rfl
      · rfl
    · rfl

def Approach.stake (c : Client) : Stake := ⟨c, ⟨true, .of .approach⟩, .withdrawn⟩

theorem Approach.stakes (c : Client) (sink : Sink) : (routine c sink).Stakes (some (stake c)) where
  arm now k := rfl
  disarm k := rfl
  relax k := rfl
  ahead x := rfl
  hear enabled now x k := rfl
  after enabled now x k := by
    simp only [routine]
    split
    · cases sink <;> rfl
    · rfl

/-- Both silencers want swipes alone. -/
def AlarmSilencer.stake (c : Client) : Stake := ⟨c, .forGestures (.of .swipe), .forGestures .empty⟩

theorem AlarmSilencer.stakes (c : Client) : (routine c).Stakes (some (stake c)) where
  arm now k := rfl
  disarm k := rfl
  relax k := rfl
  ahead x := by
    simp only [routine]
    split <;> rfl
  hear enabled now x k := rfl
  after enabled now x k := by
    simp only [routine, hear]
    split <;> rfl

theorem Line.Changes.votes {c : Client} {now : Instant} {l : Line} {b : Line × List Request}
    (hb : Changes c now l b) : votes b.2 = Stake.cast (some (AlarmSilencer.stake c)) l.ringing b.1.ringing := by
  cases hb with
  | rest => exact (Stake.cast_self _ l.ringing).symm
  | takeUp hl =>
    rw [hl]
    rfl
  | drop hl =>
    rw [hl]
    rfl

namespace CallSilencer

theorem Responds.votes {c : Client} {now : Instant} {s : CallSilencer} {a : Reaction Effect CallSilencer}
    (ha : s.Responds c now a) :
    votes a.requests = Stake.cast (some (AlarmSilencer.stake c)) s.isArmed a.next.isArmed := by
  cases ha with
  | still => simp [Reaction.still, Reaction.requests]
  | switch on hl => simp [Reaction.still, Reaction.requests, isArmed, hl]
  | change on state hl hb =>
    have hv := hb.votes
    simp [Reaction.requests, isArmed, hl, hv]

theorem next_hear (now : Instant) (x : Reading) (s : CallSilencer) : (s.hear now x).next = s := by
  unfold hear
  split <;> rfl

theorem votes_hear (now : Instant) (x : Reading) (s : CallSilencer) : votes (s.hear now x).requests = [] := by
  unfold hear
  split
  · simp only [Reaction.requests]
    split <;> rfl
  · rfl

end CallSilencer

namespace Sentry

variable {κ : Type} {r : Routine κ} {b : Option Stake}

theorem votes_hear_eq_cast (h : r.Stakes b) (now : Instant) (x : Reading) (s : Sentry κ) :
    votes (s.hear r now x).requests = Stake.cast b s.isArmed (s.hear r now x).next.isArmed := by
  rw [votes_hear h, isArmed_hear, Stake.cast_self]

end Sentry

namespace Observer

def stake : Observer → Option Stake
  | approach c _ _ => some (Approach.stake c)
  | attentive c mode _ _ => some (Attentive.stake c mode)
  | _ => none

def isArmed : Observer → Bool
  | pickup _ s => s.isArmed
  | unstow _ s => s.isArmed
  | approach _ _ s => s.isArmed
  | attentive _ _ _ s => s.isArmed
  | _ => false

theorem votes_notice (now : Instant) (n : Notice) (o : Observer) :
    votes (o.notice now n).requests = Stake.cast o.stake o.isArmed (o.notice now n).next.isArmed := by
  cases o with
  | doze => rfl
  | flashlight sink => cases n <;> rfl
  | pickup sink s => exact (s.responds_notice _ false now n).votes (Pickup.stakes sink)
  | unstow sink s => exact (s.responds_notice _ false now n).votes (Unstow.stakes sink)
  | approach c sink s => exact (s.responds_notice _ false now n).votes (Approach.stakes c sink)
  | attentive c mode window s => exact (s.responds_notice _ true now n).votes (Attentive.stakes c mode window)
  | recorder name => rfl

theorem votes_hear (now : Instant) (x : Reading) (o : Observer) :
    votes (o.hear now x).requests = Stake.cast o.stake o.isArmed (o.hear now x).next.isArmed := by
  cases o with
  | doze => rfl
  | flashlight sink =>
    simp only [hear]
    split
    · cases sink <;> rfl
    · rfl
  | pickup sink s => exact Sentry.votes_hear_eq_cast (Pickup.stakes sink) now x s
  | unstow sink s => exact Sentry.votes_hear_eq_cast (Unstow.stakes sink) now x s
  | approach c sink s => exact Sentry.votes_hear_eq_cast (Approach.stakes c sink) now x s
  | attentive c mode window s => exact Sentry.votes_hear_eq_cast (Attentive.stakes c mode window) now x s
  | recorder name => rfl

end Observer

namespace Member

def stake : Member → Option Stake
  | observer o => o.stake
  | alarm c _ => some (AlarmSilencer.stake c)
  | call c _ => some (AlarmSilencer.stake c)

def isArmed : Member → Bool
  | observer o => o.isArmed
  | alarm _ s => s.isArmed
  | call _ s => s.isArmed

def client? (k : Member) : Option Client := k.stake.map (·.client)

theorem fixed_stake : Fixed stake :=
  ⟨fun _ _ _ => rfl, fun _ _ _ => rfl, fun _ _ _ _ => rfl, fun _ _ _ _ _ => rfl, fun _ _ _ => rfl, fun _ _ _ => rfl⟩

theorem client?_react (now : Instant) (m : Message) (k : Member) : (k.react now m).next.client? = k.client? := by
  rw [client?, fixed_stake.react, client?]

/-- A member votes exactly when its answer arms or disarms it. -/
theorem votes_react (now : Instant) (m : Message) (k : Member) :
    votes (k.react now m).requests = Stake.cast k.stake k.isArmed (k.react now m).next.isArmed := by
  cases k with
  | observer o =>
    cases m with
    | notice n => exact o.votes_notice now n
    | reading x => exact o.votes_hear now x
    | ringing on => exact (Stake.cast_self ..).symm
    | line c => exact (Stake.cast_self ..).symm
  | alarm c s =>
    cases m with
    | notice n =>
      cases n with
      | screen on => exact (Stake.cast_self ..).symm
      | preference p on => exact (s.responds_prefer _ now p on).votes (AlarmSilencer.stakes c)
    | ringing on => exact (s.responds_signal _ now on).votes (AlarmSilencer.stakes c)
    | line l => exact (Stake.cast_self ..).symm
    | reading x => exact s.votes_hear_eq_cast (AlarmSilencer.stakes c) now x
  | call c s =>
    cases m with
    | notice n =>
      cases n with
      | screen on => exact (Stake.cast_self ..).symm
      | preference p on => exact (s.responds_prefer c now p on).votes
    | ringing on => exact (Stake.cast_self ..).symm
    | line l => exact (s.responds_callState c now l).votes
    | reading x =>
      change votes (s.hear now x).requests = Stake.cast _ s.isArmed (s.hear now x).next.isArmed
      rw [s.votes_hear, s.next_hear, Stake.cast_self]

end Member

end GestureActions
