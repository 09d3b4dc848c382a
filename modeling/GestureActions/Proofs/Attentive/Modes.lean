import GestureActions.Proofs.Attentive.Merged
import GestureActions.Proofs.Faults.Assembly
import GestureActions.Proofs.System.Balance
import GestureActions.Proofs.System.Moments

/-! # The two modes where nothing is stowed

A display that is never told that the device is stowed follows the object gestures alone,
in either mode: its proximity and its calls for the bright screen are those of one course,
in which the mode has no part. The two modes differ in the stow readings that get through
to them, and none of these matters.
-/
namespace GestureActions

open Request

namespace Stimulus

/-- What a stimulus says of the device being stowed. -/
def stow? : Stimulus → Option Bool
  | emission r | delivery r _ => r.stow?
  | _ => none

/-- What a stimulus tells a party that listens to the detector of an object. -/
def object? (p : Party) : Stimulus → Option Bool
  | emission r => r.object?
  | delivery r q => if q = p then r.object? else none
  | _ => none

end Stimulus

namespace PowerCall

def isBright : PowerCall → Bool
  | acquire .screenBright | release .screenBright => true
  | _ => false

/-- The calls for the bright screen that go with a lock taken or left. -/
def turn : Bool → Bool → List PowerCall
  | false, true => [acquire .screenBright]
  | true, false => [release .screenBright]
  | _, _ => []

/-- Calls that take or leave a lock and are otherwise dim holds. -/
def Turns (dim? : Option Span) (was is : Bool) (cs : List PowerCall) : Prop :=
  cs.filter isBright = turn was is ∧ ∀ c ∈ cs, c.isBright = true ∨ ∃ d, dim? = some d ∧ c = acquireFor .screenDim d

theorem turn_self (b : Bool) : turn b b = [] := by
  cases b <;> rfl

theorem turns_nil (dim? : Option Span) (b : Bool) : Turns dim? b b [] := ⟨(turn_self b).symm, nofun⟩

end PowerCall

/-- A change that leaves a lock locked or not, with the calls that go with it. -/
structure ScreenLock.Change.Makes (l : ScreenLock) (is : Bool) (c : Change) : Prop where
  dim_eq : c.lock.dimHold = l.dimHold
  locked_eq : c.lock.locked = is
  turns : PowerCall.Turns l.dimHold l.locked is c.calls

namespace ScreenLock

variable (l : ScreenLock)

theorem makes_lock : l.lock.Makes l true := by
  obtain ⟨dim?, locked, u⟩ := l
  cases locked with
  | true => exact ⟨rfl, rfl, PowerCall.turns_nil _ _⟩
  | false => exact ⟨rfl, rfl, rfl, by simp [lock, PowerCall.isBright]⟩

theorem makes_unlock (now : Instant) : (l.unlock now).Makes l false := by
  obtain ⟨dim?, locked, u⟩ := l
  cases locked with
  | false => exact ⟨rfl, rfl, PowerCall.turns_nil _ _⟩
  | true => cases dim? <;> exact ⟨rfl, rfl, rfl, by simp [unlock, PowerCall.isBright]⟩

theorem makes_releaseNow : l.releaseNow.Makes l false := by
  obtain ⟨dim?, locked, u⟩ := l
  cases locked with
  | false => exact ⟨rfl, rfl, PowerCall.turns_nil _ _⟩
  | true => exact ⟨rfl, rfl, rfl, by simp [releaseNow, PowerCall.isBright]⟩

end ScreenLock

theorem Proximity.setStowed_self (p : Proximity) (now : Instant) : p.setStowed p.stowed now = p := by
  simp [setStowed, stowChanges]

/-- The proximity after a step, given whether the display was armed and is armed now, and
what it was told of an object, if anything. -/
def Proximity.next (was is : Bool) (now : Instant) (object? : Option Bool) (p : Proximity) : Proximity :=
  match was, is with
  | false, true => .arm now
  | true, true => object?.elim p (p.setObject · now)
  | _, false => p

theorem Stimulus.stow?_of_reading? {p : Party} {hears : Sensor → Bool} {x : Stimulus} {r : Reading}
    (h : x.reading? p hears = some r) : x.stow? = r.stow? := by
  cases x with
  | emission y =>
    rw [reading?] at h
    split at h <;> cases h
    rfl
  | delivery y q =>
    rw [reading?] at h
    split at h <;> cases h
    rfl
  | _ => cases h

/-- What a stimulus tells a display that is registered for the detector is what it says of
an object. -/
theorem Stimulus.object?_of_hears {hears : Sensor → Bool} (h : hears .irGesture = true) (p : Party) (x : Stimulus) :
    (x.reading? p hears).bind Reading.object? = x.object? p := by
  cases x with
  | emission r =>
    by_cases hr : r.sensor = .irGesture
    · rw [reading?, hr, if_pos h]
      rfl
    · have hnone : r.object? = none := if_neg hr
      rw [object?, hnone, reading?]
      split
      · exact hnone
      · rfl
  | delivery r q =>
    rw [reading?, object?]
    split <;> rfl
  | _ => rfl

namespace Attentive

/-- A display that is locked if and only if it is armed and sees an object, and that knows
of nothing stowed. -/
structure Shows (dim? : Option Span) (armed : Bool) (p : Proximity) (a : Attentive) : Prop where
  dim_eq : a.lock.dimHold = dim?
  proximity_eq : a.proximity = p
  unstowed : p.stowed = false
  lock_eq : a.lock.locked = (armed && p.objectDetected)

/-- An armed display that shows another proximity, with what it asked meanwhile. -/
def Reshows (dim? : Option Span) (p q : Proximity) (b : Attentive × List Request) : Prop :=
  b.1.Shows dim? true q ∧ PowerCall.Turns dim? p.objectDetected q.objectDetected (b.2.filterMap Request.power?)

variable {dim? : Option Span} {p : Proximity} {a : Attentive}

/-- What a display comes to with its lock and its proximity left as they are, and with nothing
asked of the power service. -/
def Aside (a : Attentive) (b : Attentive × List Request) : Prop :=
  b.1.lock = a.lock ∧ b.1.proximity = a.proximity ∧ b.2.filterMap Request.power? = []

theorem aside_listen (a : Attentive) : Aside a a.listen := by
  unfold listen
  split <;> exact ⟨rfl, rfl, rfl⟩

theorem aside_unlisten (a : Attentive) : Aside a a.unlisten := by
  unfold unlisten
  split <;> exact ⟨rfl, rfl, rfl⟩

theorem Shows.stay (h : a.Shows dim? true p) {b : Attentive × List Request} (hb : Aside a b) : Reshows dim? p p b := by
  obtain ⟨hl, hp, hc⟩ := hb
  refine ⟨⟨?_, ?_, h.unstowed, ?_⟩, ?_⟩
  · rw [hl, h.dim_eq]
  · rw [hp, h.proximity_eq]
  · rw [hl, h.lock_eq]
  · rw [hc]
    exact PowerCall.turns_nil _ _

variable {q : Proximity} {b : Attentive × List Request}

theorem Shows.make (h : a.Shows dim? true p) {c : ScreenLock.Change} (hc : c.Makes a.lock q.objectDetected)
    (hs : q.stowed = false) (hb : Aside { a with proximity := q, lock := c.lock } b) :
    Reshows dim? p q (b.1, powered c ++ b.2) := by
  obtain ⟨hl, hp, hnone⟩ := hb
  have hturns := hc.turns
  rw [h.dim_eq, h.lock_eq, Bool.true_and] at hturns
  refine ⟨⟨?_, hp, hs, ?_⟩, ?_⟩
  · rw [hl, hc.dim_eq, h.dim_eq]
  · rw [hl, hc.locked_eq, Bool.true_and]
  · rw [List.filterMap_append, power_powered, hnone, List.append_nil]
    exact hturns

theorem Shows.decide (h : a.Shows dim? true p) (now : Instant) (hs : q.stowed = false) :
    Reshows dim? p q (Attentive.decide now { a with proximity := q }) := by
  have hmakes : (if q.objectDetected then a.lock.lock else a.lock.unlock now).Makes a.lock q.objectDetected := by
    cases q.objectDetected with
    | true => exact a.lock.makes_lock
    | false => exact a.lock.makes_unlock now
  unfold Attentive.decide
  dsimp only
  rw [Proximity.shouldLock, hs, Bool.not_false, Bool.and_true]
  have hmade := h.make (b := (_, [])) hmakes hs ⟨rfl, rfl, rfl⟩
  rwa [List.append_nil] at hmade

theorem Shows.simpleGesture (h : a.Shows dim? true p) (now : Instant) (g : Gesture) :
    Reshows dim? p (g.object?.elim p (p.setObject · now)) (a.simpleGesture true now g) := by
  obtain rfl := h.proximity_eq
  cases g with
  | objectDetected =>
    have htaken := fun b => h.make (q := a.proximity.setObject true now) (b := b) a.lock.makes_lock h.unstowed
    unfold Attentive.simpleGesture
    rw [if_pos rfl]
    dsimp only
    split
    · exact htaken _ (aside_listen _)
    · rename_i hc
      -- a lock that is taken already is not taken again
      have hnil : powered a.lock.lock = [] := by
        unfold ScreenLock.lock at hc ⊢
        split
        · rfl
        · rename_i hl
          exact absurd (if_neg hl ▸ rfl) hc
      have hrest := htaken (_, []) ⟨rfl, rfl, rfl⟩
      rwa [hnil] at hrest
  | objectNotDetected =>
    exact h.make (q := a.proximity.setObject false now) (a.lock.makes_unlock now) h.unstowed (aside_unlisten _)
  | _ => exact h.stay ⟨rfl, rfl, rfl⟩

theorem Shows.mergedGesture (h : a.Shows dim? true p) (now : Instant) (g : Gesture) :
    Reshows dim? p (g.object?.elim p (p.setObject · now)) (a.mergedGesture true now g) := by
  obtain rfl := h.proximity_eq
  cases g with
  | objectDetected => exact h.decide now h.unstowed
  | objectNotDetected => exact h.decide now h.unstowed
  | _ => exact h.stay ⟨rfl, rfl, rfl⟩

/-- Word that nothing is stowed is no news. -/
theorem Shows.setStowed (h : a.Shows dim? true p) (now : Instant) : a.proximity.setStowed false now = a.proximity := by
  rw [← h.unstowed, ← h.proximity_eq]
  exact a.proximity.setStowed_self now

theorem Shows.simpleStow (h : a.Shows dim? true p) (window : Span) (now : Instant) :
    Reshows dim? p p (a.simpleStow window now false) := by
  refine h.stay ?_
  unfold Attentive.simpleStow
  split
  · exact ⟨rfl, rfl, rfl⟩
  · split
    · exact aside_unlisten a
    · rw [h.setStowed now]
      exact ⟨rfl, rfl, rfl⟩

theorem Shows.mergedStow (h : a.Shows dim? true p) (now : Instant) : Reshows dim? p p (a.mergedStow now false) := by
  unfold Attentive.mergedStow
  rw [h.setStowed now, h.proximity_eq]
  exact h.decide now h.unstowed

/-- A reading that does not say that the device is stowed counts for what it says of an
object, in either mode. -/
theorem Shows.hear (h : a.Shows dim? true p) (mode : AttentiveMode) (window : Span) (now : Instant) {r : Reading}
    (hr : r.stow? ≠ some true) :
    Reshows dim? p (r.object?.elim p (p.setObject · now)) (a.hear mode window true now r) := by
  rcases hear_cases mode window now r a with ⟨ho, _, he⟩ | ⟨g, ho, _, he⟩ | ⟨v, ho, hs, he⟩
  · rw [ho, he]
    exact h.stay ⟨rfl, rfl, rfl⟩
  · rw [ho, he]
    cases mode with
    | simple => exact h.simpleGesture now g
    | stateMerge => exact h.mergedGesture now g
  · have hv : v = false := by
      cases v with
      | false => rfl
      | true => exact absurd hs hr
    rw [ho, he, hv]
    cases mode with
    | simple => exact h.simpleStow window now
    | stateMerge => exact h.mergedStow now

theorem Shows.arm (h : a.Shows dim? false p) (c : Client) (mode : AttentiveMode) (now : Instant) :
    (a.arm c mode now).1.Shows dim? true (.arm now) ∧ (a.arm c mode now).2.filterMap Request.power? = [] := by
  obtain ⟨hd, _, _, hl⟩ := h
  cases mode <;> exact ⟨⟨hd, rfl, rfl, hl⟩, rfl⟩

theorem Shows.disarm (h : a.Shows dim? true p) (c : Client) :
    (a.disarm c).1.Shows dim? false p ∧
      PowerCall.Turns dim? p.objectDetected false ((a.disarm c).2.filterMap Request.power?) := by
  have hpower : (a.disarm c).2.filterMap Request.power? = a.lock.releaseNow.calls := by
    simp only [Attentive.disarm, Attentive.release, List.filterMap_append, power_powered]
    split <;> rfl
  have hmakes := a.lock.makes_releaseNow
  have hturns := hmakes.turns
  rw [h.dim_eq, h.lock_eq, Bool.true_and] at hturns
  rw [hpower]
  exact ⟨⟨hmakes.dim_eq.trans h.dim_eq, h.proximity_eq, h.unstowed, hmakes.locked_eq⟩, hturns⟩

theorem Stands.armed_eq {c : Client} {mode : AttentiveMode} {window : Span} {d : Duty Attentive} {s : Standing}
    {g : Signals} (hd : Stands c mode window d s) (hs : s.Follows g) : d.armed = g.presence := by
  obtain ⟨enabled, hk, _⟩ := hd
  have harmed := hs.member.isArmed
  rw [hk] at harmed
  exact harmed

/-- A display is registered for the detector while it is armed. -/
theorem Stands.hears_detector {c : Client} {mode : AttentiveMode} {window : Span} {d : Duty Attentive} {s : Standing}
    (hd : Stands c mode window d s) (hs : s.Balanced) : s.hears .irGesture = d.armed := by
  obtain ⟨enabled, hk, _⟩ := hd
  rw [hs.hears, hk]
  exact Bool.and_true _

/-- Whatever turn a display takes, in either mode, it comes to show the next proximity. -/
theorem Shows.turn {c : Client} {mode : AttentiveMode} {window : Span} {now : Instant} {off : Bool}
    {r? : Option Reading} {armed armed' : Bool} {a' : Attentive} {qs : List Request} (h : a.Shows dim? armed p)
    (ht : Turn c mode window now off r? (armed, a) (armed', a') qs) (hr : ∀ r, r? = some r → r.stow? ≠ some true) :
    let q := p.next armed armed' now (r?.bind Reading.object?)
    a'.Shows dim? armed' q ∧
      PowerCall.Turns dim? (armed && p.objectDetected) (armed' && q.objectDetected) (qs.filterMap Request.power?) := by
  cases ht with
  | rest ho hq =>
    have hself : p.next armed armed now (r?.bind Reading.object?) = p := by
      cases armed with
      | false => rfl
      | true =>
        rw [(ho rfl).2]
        rfl
    rw [power_of_readClock hq, hself]
    exact ⟨h, PowerCall.turns_nil _ _⟩
  | arm ho hr' =>
    obtain ⟨ha, hc⟩ := h.arm c mode now
    rw [hc]
    exact ⟨ha, PowerCall.turns_nil _ _⟩
  | disarm ho => exact h.disarm c
  | hear ho hr' =>
    obtain ⟨ha, hc⟩ := h.hear mode window now (hr _ hr')
    rw [hr']
    exact ⟨ha, hc⟩

end Attentive

namespace World

def proximity? (p : Party) (w : World) : Option Proximity :=
  (w.member? p).bind fun
    | .observer (.attentive _ _ _ s) => s.duty.map (·.core.proximity)
    | _ => none

/-- A display in service that knows the signals and shows a proximity, alone with the wake
holds in an orderly world; the calls for the bright screen are as given, and the others are
for dim holds. -/
structure Shows (c : Client) (mode : AttentiveMode) (window : Span) (dim? : Option Span) (p : Party) (g : Signals)
    (q : Proximity) (bright : List PowerCall) (w : World) : Prop where
  orderly : w.Orderly
  display : w.SoleDisplay p
  drawer : w.SoleDrawer p
  standing : ∃ s d, w.standing p = some s ∧ Attentive.Stands c mode window d s ∧ s.Follows g ∧ s.Balanced ∧
    d.core.Shows dim? d.armed q
  bright_eq : w.log.power.filter PowerCall.isBright = bright
  dim : ∀ c ∈ w.log.power, c.isBright = true ∨ ∃ d, dim? = some d ∧ c = .acquireFor .screenDim d

variable {c : Client} {mode : AttentiveMode} {window : Span} {dim? : Option Span} {p : Party} {g : Signals}
  {q : Proximity} {bright : List PowerCall} {w : World}

theorem Shows.meet (h : w.Shows c mode window dim? p g q bright) {x : Stimulus} (hx : x.stow? ≠ some true) :
    let g' := x.message?.elim g g.heard
    let q' := q.next g.presence g'.presence w.now (x.object? p)
    ∃ v, w.meet .never x = .done v ∧ v.now = (w.prepare x).now ∧
      v.Shows c mode window dim? p g' q'
        (bright ++ PowerCall.turn (g.presence && q.objectDetected) (g'.presence && q'.objectDetected)) := by
  intro g' q'
  obtain ⟨s, d, hs, hd, hf, hb, hshows⟩ := h.standing
  obtain ⟨v, hv, hm⟩ := meet_never h.orderly x
  obtain ⟨d', qs, hd', _, hcalls, hturn⟩ := Attentive.turned_met hd w.now p x
  have hs' : v.standing p = some (s.met w.now p x) := by rw [hm.standing, hs, Option.map_some]
  have hf' := hf.met w.now p x
  have harmed := hd.armed_eq hf
  have harmed' := hd'.armed_eq hf'
  have hdrawer := hm.drawer p h.display h.drawer
  have hpower := power_of_calls h.drawer hdrawer hs hs' hcalls
  obtain ⟨hshows', hbright, hdim⟩ := hshows.turn hturn fun r hr => x.stow?_of_reading? hr ▸ hx
  have hnext : q.next d.armed d'.armed w.now ((x.reading? p s.hears).bind Reading.object?) = q' := by
    cases ha : d.armed with
    | false =>
      change _ = q.next g.presence g'.presence w.now (x.object? p)
      rw [← harmed, ← harmed', ha]
      cases d'.armed <;> rfl
    | true => rw [Stimulus.object?_of_hears ((hd.hears_detector hb).trans ha), ← ha, harmed, harmed']
  rw [hnext] at hshows' hbright
  rw [harmed, harmed'] at hbright
  refine ⟨v, hv, congrArg Clock.now hm.clock, hm.orderly, hm.soleDisplay h.display, hdrawer,
    ⟨_, d', hs', hd', hf', hb.met w.now p x, hshows'⟩, ?_, fun c hc => ?_⟩
  · rw [hpower, List.filter_append, h.bright_eq, hbright]
  · rw [hpower] at hc
    rcases List.mem_append.mp hc with hc | hc
    · exact h.dim c hc
    · exact hdim c hc

/-- What there is to see of a display. -/
theorem Shows.visible (h : w.Shows c mode window dim? p g q bright) :
    w.isArmed p = g.presence ∧ w.isLocked p = (g.presence && q.objectDetected) ∧ w.proximity? p = some q := by
  obtain ⟨s, d, hs, hd, hf, _, hshows⟩ := h.standing
  have harmed := hd.armed_eq hf
  refine ⟨?_, ?_, ?_⟩
  · rw [isArmed_of_stands hs hd, harmed]
  · rw [isLocked_of_stands hs hd, hshows.lock_eq, harmed]
  · obtain ⟨k, hk, rfl⟩ := Option.map_eq_some_iff.mp hs
    obtain ⟨enabled, rfl, _⟩ := hd
    rw [proximity?, hk, ← hshows.proximity_eq]
    rfl

end World

namespace Attentive

variable (start : Instant) (t : Timings) (mode : AttentiveMode) (enabled : Bool)

theorem shows_rig : (rig start t mode enabled).Shows ⟨1⟩ mode t.stowWindow (initial mode t).lock.dimHold display
    (Member.unheard enabled) .initial [] where
  orderly := (watched_rig (K := fun _ _ _ _ => True) start t mode enabled trivial).orderly
  display := (watched_rig (K := fun _ _ _ _ => True) start t mode enabled trivial).display
  drawer := (watched_rig (K := fun _ _ _ _ => True) start t mode enabled trivial).drawer
  standing := by
    refine ⟨_, ⟨false, false, .initial mode t⟩, (standing_rig start t mode enabled display).trans (if_pos rfl),
      ⟨enabled, rfl, rfl, fun _ => rfl⟩, ⟨Sentry.heeds_initial _ _, rfl⟩, ⟨?_, ?_, ?_⟩, ⟨rfl, rfl, rfl, rfl⟩⟩
    · rintro _ ⟨⟩
      exact ⟨rfl, fun _ => rfl⟩
    · exact Holding.each rfl rfl rfl rfl rfl
    · intro f
      cases f <;> rfl
  bright_eq := by
    rw [power_rig]
    rfl
  dim := by
    rw [power_rig]
    exact nofun

/-- Where nothing is stowed, displays in the two modes run the same course. -/
theorem shows_run {h : List Stimulus} (hh : ∀ x ∈ h, x.stow? ≠ some true) :
    ∃ w w' q bright, (rig start t .simple enabled).run .never h = .done w ∧
      (rig start t .stateMerge enabled).run .never h = .done w' ∧ w'.now = w.now ∧
      w.Shows ⟨1⟩ .simple t.stowWindow none display ((Member.unheard enabled).after h) q bright ∧
      w'.Shows ⟨1⟩ .stateMerge t.stowWindow (some t.dimHold) display ((Member.unheard enabled).after h) q bright := by
  induction h using List.reverseRecOn with
  | nil =>
    refine ⟨_, _, _, _, rfl, rfl, ?_, shows_rig start t .simple enabled, shows_rig start t .stateMerge enabled⟩
    rw [rig_eq, rig_eq]
    rfl
  | append_singleton h x ih =>
    obtain ⟨w, w', q, bright, hw, hw', hnow, hs, hs'⟩ := ih fun y hy => hh y (List.mem_append_left _ hy)
    have hx := hh x (List.mem_append_right _ (List.mem_singleton.mpr rfl))
    obtain ⟨v, hv, hvnow, hvs⟩ := hs.meet hx
    obtain ⟨v', hv', hvnow', hvs'⟩ := hs'.meet hx
    rw [hnow] at hvs'
    rw [← Signals.after_snoc] at hvs hvs'
    refine ⟨v, v', _, _, World.run_snoc hw hv, World.run_snoc hw' hv', ?_, hvs, hvs'⟩
    rw [hvnow, hvnow', World.prepare_now_congr hnow]

/-- As long as no reading says that the device is stowed, displays in the two modes that are
told of the same things from the same start are at any time both armed or both not, both
locked or both not, and remember the same proximity. In the simple mode the power service
gets the calls that it gets in the merging mode, the dim holds left out. In the merging mode
it gets with each step what the step calls for: the bright screen if a reading locks the
display, a dim hold and then the release if a reading unlocks it, the release alone if a
locked display is called off, and else nothing. -/
theorem modes_agree {h : List Stimulus} (hh : ∀ x ∈ h, x.stow? ≠ some true) :
    ∃ w w', (rig start t .simple enabled).run .never h = .done w ∧
      (rig start t .stateMerge enabled).run .never h = .done w' ∧
      w'.isArmed display = w.isArmed display ∧ w'.isLocked display = w.isLocked display ∧
      (w.proximity? display).isSome ∧ w'.proximity? display = w.proximity? display ∧
      w.log.power = w'.log.power.filter PowerCall.isBright ∧
      (∀ c ∈ w'.log.power, c.isBright = true ∨ c = .acquireFor .screenDim t.dimHold) ∧
      (h = [] → w'.log.power = []) ∧
      ∀ k x, h = k ++ [x] → ∃ v', (rig start t .stateMerge enabled).run .never k = .done v' ∧
        w'.log.power = v'.log.power ++ x.powerDue t.dimHold (v'.isLocked display) (w'.isLocked display) := by
  obtain ⟨w, w', q, bright, hw, hw', _, hs, hs'⟩ := shows_run start t enabled hh
  obtain ⟨harmed, hlocked, hproximity⟩ := hs.visible
  obtain ⟨harmed', hlocked', hproximity'⟩ := hs'.visible
  refine ⟨w, w', hw, hw', harmed'.trans harmed.symm, hlocked'.trans hlocked.symm, ?_,
    hproximity'.trans hproximity.symm, ?_, fun c hc => ?_, ?_, ?_⟩
  · rw [hproximity]
    rfl
  · rw [hs'.bright_eq, ← hs.bright_eq]
    refine (List.filter_eq_self.mpr fun c hc => ?_).symm
    rcases hs.dim c hc with hbright | ⟨d, hd, _⟩
    · exact hbright
    · cases hd
  · rcases hs'.dim c hc with hbright | ⟨d, hd, rfl⟩
    · exact Or.inl hbright
    · exact Or.inr (by rw [Option.some.inj hd])
  · rintro rfl
    cases hw'
    exact power_rig start t .stateMerge enabled
  · rintro k x rfl
    obtain ⟨v', u', hv', hu', hpower⟩ := power_snoc start t enabled k x
    obtain rfl : w' = u' := Outcome.done.inj (hw'.symm.trans hu')
    exact ⟨v', hv', hpower⟩

/-- An object comes and goes, and in between the device is said not to be stowed; then it
comes again, and the screen goes off. -/
theorem modes_agree_passingBy :
    let h := [Stimulus.event .screenOn, .emission (.ofCode Gesture.objectDetected.code), .clock 5,
      .emission (.ofFlag .stow false), .emission (.ofCode Gesture.objectNotDetected.code),
      .emission (.ofCode Gesture.objectDetected.code), .event .screenOff]
    (∀ x ∈ h, x.stow? ≠ some true) ∧
    ∃ w w', (rig 0 .byDefault .simple true).run .never h = .done w ∧
      (rig 0 .byDefault .stateMerge true).run .never h = .done w' ∧
      w'.isArmed display = w.isArmed display ∧ w'.isLocked display = w.isLocked display ∧
      (w.proximity? display).isSome ∧ w'.proximity? display = w.proximity? display ∧
      w.log.power = w'.log.power.filter PowerCall.isBright ∧
      w'.log.power = [.acquire .screenBright, .acquireFor .screenDim 3000, .release .screenBright,
        .acquire .screenBright, .release .screenBright] ∧
      ∃ v', (rig 0 .byDefault .stateMerge true).run .never h.dropLast = .done v' ∧
        w'.log.power = v'.log.power ++
          (Stimulus.event .screenOff).powerDue 3000 (v'.isLocked display) (w'.isLocked display) := by
  intro h
  have hh : ∀ x ∈ h, x.stow? ≠ some true := by decide
  obtain ⟨w, w', hw, hw', harmed, hlocked, hsome, hproximity, hbright, _, _, hstep⟩ := modes_agree 0 .byDefault true hh
  have hpower : ((rig 0 .byDefault .stateMerge true).run .never h).state.log.power = [.acquire .screenBright,
      .acquireFor .screenDim 3000, .release .screenBright, .acquire .screenBright, .release .screenBright] := by decide
  rw [hw'] at hpower
  exact ⟨hh, w, w', hw, hw', harmed, hlocked, hsome, hproximity, hbright, hpower, hstep h.dropLast _ rfl⟩

end Attentive

end GestureActions
