import GestureActions.Proofs.Observer.Roles
import GestureActions.Proofs.System.Affairs

/-! # What members hold

A party holds a sensor while it is registered for it, and the bright screen from acquiring
it until releasing it. What a member holds can be read off its state. Its answers take
what it does not hold and give back what it does, in turns, and only while the state
changes; what it asks before and after that moves no holding and no vote.
-/
namespace GestureActions

open Request

inductive Holding
  | sensor (s : Sensor)
  | bright
  deriving DecidableEq, Repr

theorem Holding.each {P : Holding → Prop} (hgesture : P (.sensor .irGesture)) (hstow : P (.sensor .stow))
    (hflat : P (.sensor .flatUp)) (hchop : P (.sensor .chopChop)) (hbright : P .bright) : ∀ h, P h := by
  intro h
  cases h with
  | sensor s => cases s <;> assumption
  | bright => exact hbright

/-- The end of a list of Booleans each of which differs from the one before it. -/
def alternation? : Bool → List Bool → Option Bool
  | b, [] => some b
  | b, c :: r => if c = b then none else alternation? c r

theorem alternation?_append (b : Bool) (l r : List Bool) :
    alternation? b (l ++ r) = (alternation? b l).bind fun c => alternation? c r := by
  induction l generalizing b with
  | nil => rfl
  | cons c l ih =>
    rw [List.cons_append, alternation?, alternation?]
    split
    · rfl
    · exact ih c

theorem isChain_of_alternation? {b c : Bool} {l : List Bool} (h : alternation? b l = some c) :
    (b :: l).IsChain (· ≠ ·) := by
  induction l generalizing b with
  | nil => exact List.isChain_singleton b
  | cons d l ih =>
    rw [alternation?] at h
    split at h
    · cases h
    · rename_i hd
      exact List.isChain_cons_cons.mpr ⟨Ne.symm hd, ih h⟩

theorem getLastD_of_alternation? {b c : Bool} {l : List Bool} (h : alternation? b l = some c) :
    l.getLastD b = c := by
  induction l generalizing b with
  | nil => exact Option.some.inj h
  | cons d l ih =>
    rw [alternation?] at h
    split at h
    · cases h
    · rw [List.getLastD_cons]
      exact ih h

theorem getLastD_append (l m : List Bool) (b : Bool) : (l ++ m).getLastD b = m.getLastD (l.getLastD b) := by
  rw [List.getLastD_eq_getLast?, List.getLast?_append]
  cases hm : m.getLast? <;> simp [List.getLastD_eq_getLast?, hm]

namespace Holding

/-- Whether a call takes a holding or gives it back. -/
def change? : Holding → Call → Option Bool
  | sensor t, .register s => if s = t then some true else none
  | sensor t, .unregister s => if s = t then some false else none
  | bright, .power (.acquire .screenBright) => some true
  | bright, .power (.release .screenBright) => some false
  | _, _ => none

def changes (h : Holding) (cs : List Call) : List Bool := cs.filterMap h.change?

/-- The changes that requests come to. -/
def asked (h : Holding) (qs : List Request) : List Bool := h.changes (qs.filterMap Request.call?)

theorem changes_append (h : Holding) (cs ds : List Call) : h.changes (cs ++ ds) = h.changes cs ++ h.changes ds :=
  List.filterMap_append

theorem asked_append (h : Holding) (qs rs : List Request) : h.asked (qs ++ rs) = h.asked qs ++ h.asked rs := by
  rw [asked, List.filterMap_append, changes_append, asked, asked]

/-- What configures the detector changes no holding. -/
theorem changes_callsOf (h : Holding) (p : Party) (w : World) :
    h.changes (w.log.callsOf p) = h.changes (w.callsOf p) := by
  rw [changes, changes, World.callsOf, List.filterMap_filter]
  congr 1
  funext x
  cases x with
  | configure s => cases h <;> rfl
  | _ => rfl

/-- The registration for a sensor after some requests is the last one they ask for. -/
theorem foldl_hears (t : Sensor) (qs : List Request) (held : Bool) :
    qs.foldl (Request.hears t) held = ((sensor t).asked qs).getLastD held := by
  induction qs generalizing held with
  | nil => rfl
  | cons q r ih =>
    have hone : Request.hears t held q = ((sensor t).asked [q]).getLastD held := by
      cases q with
      | register s => by_cases hs : s = t <;> simp [Request.hears, asked, changes, call?, change?, hs]
      | unregister s => by_cases hs : s = t <;> simp [Request.hears, asked, changes, call?, change?, hs]
      | _ => rfl
    have hsplit : (sensor t).asked (q :: r) = (sensor t).asked [q] ++ (sensor t).asked r := asked_append _ [q] r
    rw [List.foldl_cons, ih, hone, hsplit, getLastD_append]

/-- Whether the bright screen is held is what the last call that concerns it says. -/
theorem isHeld_eq (cs : List Call) :
    PowerCall.isHeld .screenBright (cs.filterMap Call.power?) = (bright.changes cs).getLastD false := by
  induction cs using List.reverseRecOn with
  | nil => rfl
  | append_singleton cs c ih =>
    have hone : ∀ held, ([c].filterMap Call.power?).foldl (PowerCall.holds .screenBright) held =
        (bright.changes [c]).getLastD held := by
      intro held
      cases c with
      | power c =>
        cases c with
        | acquire w => cases w <;> rfl
        | release w => cases w <;> rfl
        | acquireFor w d => rfl
      | _ => rfl
    rw [changes_append, getLastD_append, ← ih, ← hone, List.filterMap_append, PowerCall.isHeld, PowerCall.isHeld,
      List.foldl_append]

end Holding

/-- A request that moves neither a holding nor a vote. -/
def Request.IsAside : Request → Prop
  | readClock | output _ | act | record _ _ => True
  | _ => False

theorem Request.asked_of_isAside {qs : List Request} (hq : ∀ q ∈ qs, q.IsAside) (h : Holding) : h.asked qs = [] := by
  induction qs with
  | nil => rfl
  | cons q r ih =>
    have hone : h.asked [q] = [] := by
      have haside := hq q List.mem_cons_self
      cases q <;> first | exact haside.elim | cases h <;> rfl
    have happ : h.asked (q :: r) = h.asked [q] ++ h.asked r := h.asked_append [q] r
    rw [happ, hone, ih fun a ha => hq a (List.mem_cons_of_mem q ha)]
    rfl

theorem Request.votes_of_isAside {qs : List Request} (hq : ∀ q ∈ qs, q.IsAside) : votes qs = [] := by
  refine List.filterMap_eq_nil_iff.mpr fun q hm => ?_
  have haside := hq q hm
  cases q <;> first | exact haside.elim | rfl

/-- What an answer does to the holdings of whoever gives it: it takes and gives back while
the state changes, as the states before and after say, and nothing else. -/
structure Reaction.Trades {σ : Type} (Fit : σ → Prop) (holds : σ → Holding → Bool) (s : σ)
    (r : Reaction Effect σ) : Prop where
  fit : Fit r.next
  trade : ∀ h : Holding, alternation? (holds s h) (h.asked r.during) = some (holds r.next h)
  before : ∀ q ∈ r.before, q.IsAside
  after : ∀ q ∈ r.after.flatMap Effect.requests, q.IsAside

/-- However much of what comes after the change is asked, an answer asks as much of the
holdings as the change does. -/
theorem Reaction.Trades.asked_eq {σ : Type} {Fit : σ → Prop} {holds : σ → Holding → Bool} {s : σ}
    {r : Reaction Effect σ} (hr : r.Trades Fit holds s) {ds : List Request} (hd : ∀ q ∈ ds, q.IsAside) (h : Holding) :
    h.asked (r.before ++ r.during ++ ds) = h.asked r.during := by
  rw [h.asked_append, h.asked_append, asked_of_isAside hr.before, asked_of_isAside hd, List.nil_append, List.append_nil]

theorem Reaction.trades_asking {σ : Type} {Fit : σ → Prop} {holds : σ → Holding → Bool} {s : σ} (hs : Fit s)
    {qs : List Request} (hq : ∀ q ∈ qs, q.IsAside) : (asking qs s).Trades Fit holds s where
  fit := hs
  trade _ := rfl
  before := hq
  after := nofun

theorem Reaction.trades_doing {σ : Type} {Fit : σ → Prop} {holds : σ → Holding → Bool} {s : σ} (hs : Fit s)
    {es : List Effect} (hq : ∀ q ∈ es.flatMap Effect.requests, q.IsAside) : (doing es s).Trades Fit holds s where
  fit := hs
  trade _ := rfl
  before := nofun
  after := hq

theorem Reaction.trades_still {σ : Type} {Fit : σ → Prop} {holds : σ → Holding → Bool} {s : σ} (hs : Fit s) :
    (still s).Trades Fit holds s where
  fit := hs
  trade _ := rfl
  before := nofun
  after := nofun

theorem Sink.isAside_fire (s : Sink) : ∀ q ∈ [Effect.fire s].flatMap Effect.requests, q.IsAside := by
  intro q hq
  cases s with
  | counter => rw [List.mem_singleton.mp hq]; trivial
  | _ => exact absurd hq List.not_mem_nil

/-- A routine that takes its holdings when it arms, gives them back when it disarms and
keeps to them meanwhile; `Fit` is what its memory keeps, armed or not. -/
structure Routine.Trades {κ : Type} (r : Routine κ) (Fit : Bool → κ → Prop) (holds : κ → Holding → Bool) : Prop where
  arm : ∀ now k, Fit false k → Fit true (r.arm now k).1 ∧
    ∀ h : Holding, alternation? false (h.asked (r.arm now k).2) = some (holds (r.arm now k).1 h)
  disarm : ∀ k, Fit true k → Fit false (r.disarm k).1 ∧
    ∀ h : Holding, alternation? (holds k h) (h.asked (r.disarm k).2) = some false
  relax : ∀ k, Fit false k → r.relax k = (k, [])
  ahead : ∀ x, ∀ q ∈ r.ahead x, q.IsAside
  hear : ∀ enabled now x k, Fit true k → Fit true (r.hear enabled now x k).1 ∧
    ∀ h : Holding, alternation? (holds k h) (h.asked (r.hear enabled now x k).2.1) =
      some (holds (r.hear enabled now x k).1 h)
  after : ∀ enabled now x k, ∀ q ∈ (r.hear enabled now x k).2.2.flatMap Effect.requests, q.IsAside

section Sentries

variable {κ : Type}

def Duty.holds (f : κ → Holding → Bool) (d : Duty κ) (h : Holding) : Bool := d.armed && f d.core h

def Sentry.holds (f : κ → Holding → Bool) (s : Sentry κ) (h : Holding) : Bool := s.duty.any (·.holds f h)

def Sentry.Fit (Fit : Bool → κ → Prop) (s : Sentry κ) : Prop := ∀ d, s.duty = some d → Fit d.armed d.core

variable {r : Routine κ} {Fit : Bool → κ → Prop} {f : κ → Holding → Bool}

theorem Duty.Changes.trades {now : Instant} {d : Duty κ} {c : Duty κ × List Request} (hc : Changes r now d c)
    (hr : r.Trades Fit f) (hd : Fit d.armed d.core) :
    Fit c.1.armed c.1.core ∧
    ∀ h : Holding, alternation? (d.holds f h) (h.asked c.2) = some (c.1.holds f h) := by
  obtain ⟨present, armed, core⟩ := d
  cases hc with
  | rest => exact ⟨hd, fun _ => rfl⟩
  | arm ha =>
    cases ha
    exact hr.arm now core hd
  | disarm ha =>
    cases ha
    exact hr.disarm core hd
  | relax ha =>
    cases ha
    rw [hr.relax core hd]
    exact ⟨hd, fun _ => rfl⟩

theorem Sentry.Responds.trades {now : Instant} {s : Sentry κ} {a : Reaction Effect (Sentry κ)}
    (ha : s.Responds r now a) (hr : r.Trades Fit f) (hs : s.Fit Fit) : a.Trades (Sentry.Fit Fit) (Sentry.holds f) s := by
  obtain ⟨enabled, duty⟩ := s
  cases ha with
  | still => exact Reaction.trades_still hs
  | switch on hd =>
    cases hd
    exact ⟨nofun, fun _ => rfl, nofun, nofun⟩
  | @change on present d c hd hc =>
    cases hd
    have hd : Fit d.armed d.core := hs d rfl
    obtain ⟨hfit, htrade⟩ := hc.trades hr hd
    refine ⟨?_, htrade, nofun, nofun⟩
    rintro _ ⟨⟩
    exact hfit

theorem Sentry.trades_hear (hr : r.Trades Fit f) (now : Instant) (x : Reading) {s : Sentry κ} (hs : s.Fit Fit) :
    (s.hear r now x).Trades (Sentry.Fit Fit) (Sentry.holds f) s := by
  obtain ⟨enabled, duty⟩ := s
  cases duty with
  | none => exact Reaction.trades_asking hs (hr.ahead x)
  | some d =>
    obtain ⟨present, armed, core⟩ := d
    cases armed with
    | false => exact Reaction.trades_asking hs (hr.ahead x)
    | true =>
      obtain ⟨hfit, htrade⟩ := hr.hear enabled now x core (hs _ rfl)
      refine ⟨?_, htrade, hr.ahead x, hr.after enabled now x core⟩
      rintro _ ⟨⟩
      exact hfit

end Sentries

namespace Pickup

def holds (_ : PickupEdge) : Holding → Bool
  | .sensor .flatUp | .sensor .stow => true
  | _ => false

theorem trades (sink : Sink) : (routine sink).Trades (fun _ _ => True) holds where
  arm now k _ := ⟨trivial, Holding.each rfl rfl rfl rfl rfl⟩
  disarm k _ := ⟨trivial, Holding.each rfl rfl rfl rfl rfl⟩
  relax k _ := rfl
  ahead x := List.forall_mem_nil _
  hear enabled now x k _ := by
    refine ⟨trivial, fun h => ?_⟩
    simp only [routine, hear]
    split <;> rfl
  after enabled now x k := by
    simp only [routine, hear]
    split
    · dsimp only
      split
      · exact sink.isAside_fire
      · exact List.forall_mem_nil _
    · exact List.forall_mem_nil _
    · exact List.forall_mem_nil _

end Pickup

namespace Unstow

def holds (_ : FallingEdge) : Holding → Bool
  | .sensor .stow => true
  | _ => false

theorem trades (sink : Sink) : (routine sink).Trades (fun _ _ => True) holds where
  arm now k _ := ⟨trivial, Holding.each rfl rfl rfl rfl rfl⟩
  disarm k _ := ⟨trivial, Holding.each rfl rfl rfl rfl rfl⟩
  relax k _ := rfl
  ahead x := List.forall_mem_nil _
  hear enabled now x k _ := by
    refine ⟨trivial, fun h => ?_⟩
    simp only [routine, hear]
    split <;> rfl
  after enabled now x k := by
    simp only [routine, hear]
    split
    · dsimp only
      split
      · exact sink.isAside_fire
      · exact List.forall_mem_nil _
    · exact List.forall_mem_nil _

end Unstow

/-- The gesture detector is all that a watcher for single gestures holds. -/
def Holding.isDetector : Holding → Bool
  | .sensor .irGesture => true
  | _ => false

theorem Approach.trades (c : Client) (sink : Sink) :
    (routine c sink).Trades (fun _ _ => True) (fun _ => Holding.isDetector) where
  arm now k _ := ⟨trivial, Holding.each rfl rfl rfl rfl rfl⟩
  disarm k _ := ⟨trivial, Holding.each rfl rfl rfl rfl rfl⟩
  relax k _ := rfl
  ahead x := List.forall_mem_nil _
  hear enabled now x k _ := ⟨trivial, fun _ => rfl⟩
  after enabled now x k := by
    simp only [routine]
    split
    · exact sink.isAside_fire
    · exact List.forall_mem_nil _

theorem AlarmSilencer.trades (c : Client) : (routine c).Trades (fun _ _ => True) (fun _ => Holding.isDetector) where
  arm now k _ := ⟨trivial, Holding.each rfl rfl rfl rfl rfl⟩
  disarm k _ := ⟨trivial, Holding.each rfl rfl rfl rfl rfl⟩
  relax k _ := rfl
  ahead x := by
    simp only [routine]
    split <;> simp [IsAside]
  hear enabled now x k _ := ⟨trivial, fun _ => rfl⟩
  after enabled now x k := by
    simp only [routine, hear]
    split <;> simp [Effect.requests, IsAside]

theorem Line.Changes.trades {c : Client} {now : Instant} {l : Line} {b : Line × List Request} (hb : Changes c now l b)
    (h : Holding) : alternation? (l.ringing && h.isDetector) (h.asked b.2) = some (b.1.ringing && h.isDetector) := by
  obtain ⟨state, ringing, guard⟩ := l
  revert h
  cases hb with
  | rest => exact fun _ => rfl
  | takeUp hl =>
    cases hl
    exact Holding.each rfl rfl rfl rfl rfl
  | drop hl =>
    cases hl
    exact Holding.each rfl rfl rfl rfl rfl

namespace CallSilencer

def holds (s : CallSilencer) (h : Holding) : Bool := s.isArmed && h.isDetector

theorem Responds.trades {c : Client} {now : Instant} {s : CallSilencer} {a : Reaction Effect CallSilencer}
    (ha : s.Responds c now a) : a.Trades (fun _ => True) holds s := by
  obtain ⟨enabled, line⟩ := s
  cases ha with
  | still => exact Reaction.trades_still trivial
  | switch on hl =>
    cases hl
    exact ⟨trivial, fun _ => rfl, nofun, nofun⟩
  | change on state hl hb =>
    cases hl
    exact ⟨trivial, hb.trades, nofun, nofun⟩

theorem trades_hear (now : Instant) (x : Reading) (s : CallSilencer) :
    (s.hear now x).Trades (fun _ => True) holds s := by
  unfold hear
  split
  · refine ⟨trivial, fun _ => rfl, ?_, ?_⟩
    · intro q hq
      rw [List.mem_singleton.mp hq]
      trivial
    · split <;> simp [Effect.requests, IsAside]
  · exact Reaction.trades_still trivial

end CallSilencer

namespace Attentive

/-- An armed display listens to the detector, and to the stow sensor all along or while it
is locked and not done with it; the lock is the bright screen. -/
def holds (mode : AttentiveMode) (a : Attentive) : Holding → Bool
  | .sensor .irGesture => true
  | .sensor .stow =>
    match mode with
    | .simple => a.lock.locked && !a.stowDone
    | .stateMerge => true
  | .bright => a.lock.locked
  | _ => false

/-- A display that listens to the stow sensor as it should, and is locked only if armed. -/
structure Fit (mode : AttentiveMode) (armed : Bool) (a : Attentive) : Prop where
  listening : a.stowListening = (armed && a.holds mode (.sensor .stow))
  idle : armed = false → a.lock.locked = false

/-- An armed display that has become another one, with what it asked meanwhile. -/
def Traded (mode : AttentiveMode) (a : Attentive) (b : Attentive × List Request) : Prop :=
  b.1.Fit mode true ∧ ∀ h : Holding, alternation? (a.holds mode h) (h.asked b.2) = some (b.1.holds mode h)

variable {mode : AttentiveMode} {a : Attentive}

theorem Fit.rest (h : a.Fit mode true) : Traded mode a (a, []) := ⟨h, fun _ => rfl⟩

theorem Fit.simpleGesture (ha : a.Fit .simple true) (enabled : Bool) (now : Instant) (g : Gesture) :
    Traded .simple a (a.simpleGesture enabled now g) := by
  obtain ⟨p, ⟨hold, l, u⟩, listening, done⟩ := a
  obtain ⟨hl, _⟩ := ha
  dsimp only [holds] at hl
  subst hl
  cases g with
  | objectDetected =>
    cases enabled <;> cases l <;> cases done <;>
      exact ⟨⟨rfl, nofun⟩, Holding.each rfl rfl rfl rfl rfl⟩
  | objectNotDetected =>
    cases l <;> cases done <;> cases hold <;>
      exact ⟨⟨rfl, nofun⟩, Holding.each rfl rfl rfl rfl rfl⟩
  | _ => exact ⟨⟨rfl, nofun⟩, fun _ => rfl⟩

theorem Fit.simpleStow (ha : a.Fit .simple true) (window : Span) (now : Instant) (stowed : Bool) :
    Traded .simple a (a.simpleStow window now stowed) := by
  obtain ⟨p, ⟨hold, l, u⟩, listening, done⟩ := a
  obtain ⟨hl, _⟩ := ha
  dsimp only [holds] at hl
  subst hl
  unfold Attentive.simpleStow
  dsimp only
  cases p.isWithin now window <;> cases l <;> cases done <;> cases stowed <;> cases hold <;>
    exact ⟨⟨rfl, nofun⟩, Holding.each rfl rfl rfl rfl rfl⟩

theorem traded_decide (now : Instant) (p : Proximity) (ha : a.Fit .stateMerge true) :
    Traded .stateMerge a (({ a with proximity := p } : Attentive).decide now) := by
  obtain ⟨_, ⟨hold, l, u⟩, listening, done⟩ := a
  obtain ⟨hl, _⟩ := ha
  dsimp only [holds] at hl
  subst hl
  unfold Attentive.decide
  dsimp only
  cases p.shouldLock <;> cases l <;> cases hold <;>
    exact ⟨⟨rfl, nofun⟩, Holding.each rfl rfl rfl rfl rfl⟩

theorem Fit.mergedGesture (ha : a.Fit .stateMerge true) (enabled : Bool) (now : Instant) (g : Gesture) :
    Traded .stateMerge a (a.mergedGesture enabled now g) := by
  cases g with
  | objectDetected =>
    cases enabled with
    | true => exact traded_decide now _ ha
    | false => exact ha.rest
  | objectNotDetected => exact traded_decide now _ ha
  | _ => exact ha.rest

theorem Fit.hear (ha : a.Fit mode true) (window : Span) (enabled : Bool) (now : Instant) (r : Reading) :
    Traded mode a (a.hear mode window enabled now r) := by
  unfold Attentive.hear
  split
  · split
    · exact ha.rest
    · cases mode with
      | simple => exact ha.simpleGesture enabled now _
      | stateMerge => exact ha.mergedGesture enabled now _
  · split
    · exact ha.rest
    · cases mode with
      | simple => exact ha.simpleStow window now _
      | stateMerge => exact traded_decide now _ ha
  · exact ha.rest

theorem Fit.arm (ha : a.Fit mode false) (c : Client) (now : Instant) :
    (a.arm c mode now).1.Fit mode true ∧
    ∀ h : Holding, alternation? false (h.asked (a.arm c mode now).2) = some ((a.arm c mode now).1.holds mode h) := by
  obtain ⟨p, ⟨hold, l, u⟩, listening, done⟩ := a
  obtain ⟨hl, hi⟩ := ha
  cases hi rfl
  cases hl
  cases mode <;> exact ⟨⟨rfl, nofun⟩, Holding.each rfl rfl rfl rfl rfl⟩

theorem Fit.disarm (ha : a.Fit mode true) (c : Client) :
    (a.disarm c).1.Fit mode false ∧
    ∀ h : Holding, alternation? (a.holds mode h) (h.asked (a.disarm c).2) = some false := by
  obtain ⟨p, ⟨hold, l, u⟩, listening, done⟩ := a
  obtain ⟨hl, _⟩ := ha
  dsimp only [holds] at hl
  subst hl
  cases mode <;> cases l <;> cases done <;>
    exact ⟨⟨rfl, fun _ => rfl⟩, Holding.each rfl rfl rfl rfl rfl⟩

theorem trades (c : Client) (mode : AttentiveMode) (window : Span) :
    (routine c mode window).Trades (Fit mode) (holds mode) where
  arm now k hk := hk.arm c now
  disarm k hk := hk.disarm c
  relax k hk := release_of_unlocked (hk.idle rfl)
  ahead x q hq := by
    rw [List.mem_singleton.mp hq]
    trivial
  hear enabled now x k hk := hk.hear window enabled now x
  after enabled now x k := nofun

end Attentive

namespace Observer

/-- What an observer holds by its state. -/
def holds : Observer → Holding → Bool
  | doze | recorder _ => fun _ => false
  | flashlight _ => (· = .sensor .chopChop)
  | pickup _ s => s.holds Pickup.holds
  | unstow _ s => s.holds Unstow.holds
  | approach _ _ s => s.holds fun _ => Holding.isDetector
  | attentive _ mode _ s => s.holds (Attentive.holds mode)

def Fit : Observer → Prop
  | attentive _ mode _ s => s.Fit (Attentive.Fit mode)
  | _ => True

theorem trades_notice (now : Instant) (n : Notice) {o : Observer} (ho : o.Fit) :
    (o.notice now n).Trades Fit holds o := by
  have hany : ∀ {κ : Type} (s : Sentry κ), s.Fit fun _ _ => True := fun _ _ _ => trivial
  cases o with
  | doze => exact Reaction.trades_doing ho nofun
  | flashlight sink =>
    cases n with
    | screen on => exact Reaction.trades_still ho
    | preference p v => exact Reaction.trades_doing ho nofun
  | pickup sink s =>
    obtain ⟨_, ht, hb, ha⟩ := (s.responds_notice _ false now n).trades (Pickup.trades sink) (hany s)
    exact ⟨trivial, ht, hb, ha⟩
  | unstow sink s =>
    obtain ⟨_, ht, hb, ha⟩ := (s.responds_notice _ false now n).trades (Unstow.trades sink) (hany s)
    exact ⟨trivial, ht, hb, ha⟩
  | approach c sink s =>
    obtain ⟨_, ht, hb, ha⟩ := (s.responds_notice _ false now n).trades (Approach.trades c sink) (hany s)
    exact ⟨trivial, ht, hb, ha⟩
  | attentive c mode window s =>
    obtain ⟨hf, ht, hb, ha⟩ := (s.responds_notice _ true now n).trades (Attentive.trades c mode window) ho
    exact ⟨hf, ht, hb, ha⟩
  | recorder name =>
    refine Reaction.trades_doing ho fun q hq => ?_
    rw [List.mem_singleton.mp hq]
    trivial

theorem trades_hear (now : Instant) (x : Reading) {o : Observer} (ho : o.Fit) :
    (o.hear now x).Trades Fit holds o := by
  have hany : ∀ {κ : Type} (s : Sentry κ), s.Fit fun _ _ => True := fun _ _ _ => trivial
  cases o with
  | doze => exact Reaction.trades_still ho
  | flashlight sink =>
    simp only [hear]
    split
    · exact Reaction.trades_doing ho sink.isAside_fire
    · exact Reaction.trades_still ho
  | pickup sink s =>
    obtain ⟨_, ht, hb, ha⟩ := Sentry.trades_hear (Pickup.trades sink) now x (hany s)
    exact ⟨trivial, ht, hb, ha⟩
  | unstow sink s =>
    obtain ⟨_, ht, hb, ha⟩ := Sentry.trades_hear (Unstow.trades sink) now x (hany s)
    exact ⟨trivial, ht, hb, ha⟩
  | approach c sink s =>
    obtain ⟨_, ht, hb, ha⟩ := Sentry.trades_hear (Approach.trades c sink) now x (hany s)
    exact ⟨trivial, ht, hb, ha⟩
  | attentive c mode window s =>
    obtain ⟨hf, ht, hb, ha⟩ := Sentry.trades_hear (Attentive.trades c mode window) now x ho
    exact ⟨hf, ht, hb, ha⟩
  | recorder name => exact Reaction.trades_still ho

end Observer

namespace Member

/-- What a member holds by its state. -/
def holds : Member → Holding → Bool
  | observer o => o.holds
  | alarm _ s => s.holds fun _ => Holding.isDetector
  | call _ s => s.holds

def Fit : Member → Prop
  | observer o => o.Fit
  | _ => True

/-- A member's answer trades in its holdings as its state says. -/
theorem trades_react (now : Instant) (m : Message) {k : Member} (hk : k.Fit) :
    (k.react now m).Trades Fit holds k := by
  have hany : ∀ s : Sentry DelayGuard, s.Fit fun _ _ => True := fun _ _ _ => trivial
  cases k with
  | observer o =>
    cases m with
    | notice n =>
      obtain ⟨hf, ht, hb, ha⟩ := o.trades_notice now n hk
      exact ⟨hf, ht, hb, ha⟩
    | reading x =>
      obtain ⟨hf, ht, hb, ha⟩ := o.trades_hear now x hk
      exact ⟨hf, ht, hb, ha⟩
    | _ => exact Reaction.trades_still hk
  | alarm c s =>
    cases m with
    | notice n =>
      cases n with
      | screen on => exact Reaction.trades_still hk
      | preference p on =>
        obtain ⟨_, ht, hb, ha⟩ := (s.responds_prefer _ now p on).trades (AlarmSilencer.trades c) (hany s)
        exact ⟨trivial, ht, hb, ha⟩
    | ringing on =>
      obtain ⟨_, ht, hb, ha⟩ := (s.responds_signal _ now on).trades (AlarmSilencer.trades c) (hany s)
      exact ⟨trivial, ht, hb, ha⟩
    | line l => exact Reaction.trades_still hk
    | reading x =>
      obtain ⟨_, ht, hb, ha⟩ := Sentry.trades_hear (AlarmSilencer.trades c) now x (hany s)
      exact ⟨trivial, ht, hb, ha⟩
  | call c s =>
    cases m with
    | notice n =>
      cases n with
      | screen on => exact Reaction.trades_still hk
      | preference p on =>
        obtain ⟨_, ht, hb, ha⟩ := (s.responds_prefer c now p on).trades
        exact ⟨trivial, ht, hb, ha⟩
    | ringing on => exact Reaction.trades_still hk
    | line l =>
      obtain ⟨_, ht, hb, ha⟩ := (s.responds_callState c now l).trades
      exact ⟨trivial, ht, hb, ha⟩
    | reading x =>
      obtain ⟨_, ht, hb, ha⟩ := s.trades_hear now x
      exact ⟨trivial, ht, hb, ha⟩

end Member

namespace Role

/-- What a member of a role listens to; `attending` is whether a display in the simple mode
listens to the stow sensor. -/
def listens (armed attending : Bool) : Role → Sensor → Bool
  | flashlight _, .chopChop => true
  | pickup _, .flatUp | pickup _, .stow | unstow _, .stow => armed
  | attentive _ .simple _, .stow => attending
  | attentive _ .stateMerge _, .stow => armed
  | approach _ _, .irGesture | attentive _ _ _, .irGesture | alarm _, .irGesture | call _, .irGesture => armed
  | _, _ => false

end Role

namespace Member

/-- What a member listens to goes with its being armed. -/
theorem holds_sensor (k : Member) (t : Sensor) :
    k.holds (.sensor t) = k.role.listens k.isArmed (k.holds (.sensor .stow)) t := by
  cases k with
  | observer o =>
    cases o with
    | flashlight sink => cases t <;> rfl
    | pickup sink s => obtain ⟨enabled, _ | ⟨present, _ | _, core⟩⟩ := s <;> cases t <;> rfl
    | unstow sink s => obtain ⟨enabled, _ | ⟨present, _ | _, core⟩⟩ := s <;> cases t <;> rfl
    | approach c sink s => obtain ⟨enabled, _ | ⟨present, _ | _, core⟩⟩ := s <;> cases t <;> rfl
    | attentive c mode window s =>
      obtain ⟨enabled, _ | ⟨present, _ | _, core⟩⟩ := s <;> cases mode <;> cases t <;> rfl
    | _ => rfl
  | alarm c s => obtain ⟨enabled, _ | ⟨present, _ | _, core⟩⟩ := s <;> cases t <;> rfl
  | call c s => obtain ⟨enabled, _ | ⟨state, _ | _, guard⟩⟩ := s <;> cases t <;> rfl

end Member

end GestureActions
