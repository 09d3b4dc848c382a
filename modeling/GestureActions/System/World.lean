import GestureActions.Observer.Basic
import GestureActions.Observer.CallSilencer
import GestureActions.Sensor.Registry
import GestureActions.System.Log
import GestureActions.Time.Clock

/-!
# The world

The platform and everything built on it: the clock, the registrations, the poll, the
screen as last heard of, the two sinks, the observers with the order in which notices
go round them, the two silencers, and the log of calls. A reaction is carried out call
by call, and stops at a refused one.
-/
namespace GestureActions

structure Voter (σ : Type) where
  client : Client
  silencer : σ
  deriving DecidableEq

structure World where
  clock : Clock
  registry : Registry Party
  poll : Poll
  screen : Option Bool
  doze : Doze
  flashlight : Flashlight
  observers : List Observer
  order : List Nat
  alarm : Option (Voter (Sentry DelayGuard))
  call : Option (Voter CallSilencer)
  log : Log
  deriving DecidableEq

namespace World

def initial (start : Instant) (dozeInterval vibration : Span) (flashlight : Bool) : World where
  clock := ⟨start⟩
  registry := .empty
  poll := .empty
  screen := none
  doze := .initial dozeInterval
  flashlight := ⟨flashlight, vibration⟩
  observers := []
  order := []
  alarm := none
  call := none
  log := []

def now (w : World) : Instant := w.clock.now

/-- Makes one call, unless it is refused. -/
def make (refuses : Refusals) (p : Party) (c : Call) (w : World) : Outcome World :=
  if refuses w.log.length (Collaborator.ofCall c) then .refused (Collaborator.ofCall c) w
  else .done { w with log := w.log ++ [⟨p, c⟩] }

/-- Carries out what a party asks. A vote counts even if the detector then refuses the
setting. -/
def perform (refuses : Refusals) (p : Party) (q : Request) (w : World) : Outcome World :=
  match q with
  | .register s =>
    (w.make refuses p (.register s)).andThen
      fun w => .done { w with registry := w.registry.register s p }
  | .unregister s =>
    (w.make refuses p (.unregister s)).andThen
      fun w => .done { w with registry := w.registry.unregister s p }
  | .vote c v =>
    let (poll, change) := w.poll.cast c v
    let w := { w with poll := poll }
    match change with
    | none => .done w
    | some s => w.make refuses p (.configure s)
  | .power c => w.make refuses p (.power c)
  | .readClock => w.make refuses p .readClock
  | .output o => w.make refuses p (.output o)
  | .act => w.make refuses p .act
  | .record name n => w.make refuses p (.record name n)

def performAll (refuses : Refusals) (p : Party) : List Request → World → Outcome World :=
  Outcome.each (perform refuses p)

/-- Carries out a reaction of a party whose state is kept in the world by `put`. -/
def carryOut {ε σ : Type} (refuses : Refusals) (p : Party) (put : σ → World → World)
    (effect : ε → World → Outcome World) (r : Reaction ε σ) (w : World) : Outcome World :=
  (w.performAll refuses p r.before).andThen fun w =>
    match w.performAll refuses p r.during with
    | .refused c w => .refused c (put r.lost w)
    | .done w => Outcome.each effect r.after (put r.next w)

def putDoze (d : Doze) (w : World) : World := { w with doze := d }

def carryOutDoze (refuses : Refusals) (r : Reaction Request Doze) (w : World) : Outcome World :=
  carryOut refuses .doze putDoze (perform refuses .doze) r w

def screenIsOn (w : World) : Bool := w.screen = some true

def fire (refuses : Refusals) (p : Party) (s : Sink) (w : World) : Outcome World :=
  match s with
  | .doze => w.carryOutDoze refuses (w.doze.fire w.screenIsOn w.now)
  | .flashlight => w.performAll refuses .flashlight w.flashlight.fire
  | .counter => w.perform refuses p .act

def inform (refuses : Refusals) (s : Sink) (n : Notice) (w : World) : Outcome World :=
  match s, n with
  | .doze, .screen on => w.carryOutDoze refuses (w.doze.screen w.now on)
  | .flashlight, .preference p v => .done { w with flashlight := w.flashlight.prefer p v }
  | _, _ => .done w

def effect (refuses : Refusals) (p : Party) (e : Effect) (w : World) : Outcome World :=
  match e with
  | .ask q => w.perform refuses p q
  | .fire s => w.fire refuses p s
  | .inform s n => w.inform refuses s n

def putObserver (i : Nat) (o : Observer) (w : World) : World :=
  { w with observers := w.observers.set i o }

def putAlarm (c : Client) (s : Sentry DelayGuard) (w : World) : World := { w with alarm := some ⟨c, s⟩ }

def putCall (c : Client) (s : CallSilencer) (w : World) : World := { w with call := some ⟨c, s⟩ }

def atObserver (refuses : Refusals) (i : Nat) (react : Observer → Reaction Effect Observer) (w : World) :
    Outcome World :=
  match w.observers[i]? with
  | none => .done w
  | some o => carryOut refuses (.observer i) (putObserver i) (effect refuses (.observer i)) (react o) w

def atAlarm (refuses : Refusals)
    (react : Client → Sentry DelayGuard → Reaction Effect (Sentry DelayGuard)) (w : World) :
    Outcome World :=
  match w.alarm with
  | none => .done w
  | some v =>
    carryOut refuses .alarm (putAlarm v.client) (effect refuses .alarm) (react v.client v.silencer) w

def atCall (refuses : Refusals) (react : Client → CallSilencer → Reaction Effect CallSilencer)
    (w : World) : Outcome World :=
  match w.call with
  | none => .done w
  | some v =>
    carryOut refuses .call (putCall v.client) (effect refuses .call) (react v.client v.silencer) w

end World

end GestureActions
