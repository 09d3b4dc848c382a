import GestureActions.Proofs.Attentive.Turn
import GestureActions.Proofs.System.Assembly

/-! # Sessions of an attentive display

A session runs from one arming to the next. Its diary says when the display was armed
and which readings have come to it since, each with the time and with whether the
display was registered for the stow sensor just then. What every turn of the display
keeps between its memory and the diary holds after any run.
-/
namespace GestureActions

open Request

/-- What a gesture says of an object in front of the screen. -/
def Gesture.object? : Gesture → Option Bool
  | objectDetected => some true
  | objectNotDetected => some false
  | _ => none

namespace Reading

def object? (r : Reading) : Option Bool := if r.sensor = .irGesture then r.gesture?.bind Gesture.object? else none

/-- What a reading says of the device being stowed. -/
def stow? (r : Reading) : Option Bool := if r.sensor = .stow then r.flag? else none

theorem object?_of_stow? {r : Reading} {v : Bool} (h : r.stow? = some v) : r.object? = none := by
  unfold stow? at h
  split at h
  · rename_i hs
    simp [object?, hs]
  · cases h

end Reading

/-- A display takes a reading for a gesture or for word of the stow, or passes it over. -/
theorem Attentive.hear_cases (mode : AttentiveMode) (window : Span) (now : Instant) (r : Reading) (a : Attentive) :
    (r.object? = none ∧ r.stow? = none ∧ a.hear mode window true now r = (a, [])) ∨
    (∃ g, r.object? = g.object? ∧ r.stow? = none ∧ a.hear mode window true now r = match mode with
      | .simple => a.simpleGesture true now g
      | .stateMerge => a.mergedGesture true now g) ∨
    (∃ v, r.object? = none ∧ r.stow? = some v ∧ a.hear mode window true now r = match mode with
      | .simple => a.simpleStow window now v
      | .stateMerge => a.mergedStow now v) := by
  unfold Attentive.hear
  cases hs : r.sensor with
  | irGesture =>
    have hstow : r.stow? = none := by simp [Reading.stow?, hs]
    cases hg : r.gesture? with
    | none => exact Or.inl ⟨by simp [Reading.object?, hs, hg], hstow, rfl⟩
    | some g => exact Or.inr (Or.inl ⟨g, by simp [Reading.object?, hs, hg], hstow, by cases mode <;> rfl⟩)
  | stow =>
    have hobject : r.object? = none := by simp [Reading.object?, hs]
    cases hf : r.flag? with
    | none => exact Or.inl ⟨hobject, by simp [Reading.stow?, hs, hf], rfl⟩
    | some v => exact Or.inr (Or.inr ⟨v, hobject, by simp [Reading.stow?, hs, hf], by cases mode <;> rfl⟩)
  | _ => exact Or.inl ⟨by simp [Reading.object?, hs], by simp [Reading.stow?, hs], rfl⟩

structure Receipt where
  reading : Reading
  time : Instant
  listening : Bool
  deriving DecidableEq, Repr

structure Session where
  since : Instant
  receipts : List Receipt
  deriving DecidableEq, Repr

namespace Session

/-- The diary after a step, given whether the display was armed and is armed now, and
the reading it got, if any. -/
def next (d : Session) (was is : Bool) (now : Instant) (r? : Option Reading) (listening : Bool) : Session :=
  if is && !was then ⟨now, []⟩
  else match r? with
    | none => d
    | some r => { d with receipts := d.receipts ++ [⟨r, now, listening⟩] }

variable (d : Session) (now : Instant) (listening : Bool)

theorem next_still (armed : Bool) : d.next armed armed now none listening = d := by
  cases armed <;> rfl

theorem next_reading (r : Reading) :
    d.next true true now (some r) listening = { d with receipts := d.receipts ++ [⟨r, now, listening⟩] } := rfl

end Session

namespace Member

def isLocked : Member → Bool
  | observer (.attentive _ _ _ s) => s.duty.any (·.core.lock.locked)
  | _ => false

end Member

namespace World

def isArmed (p : Party) (w : World) : Bool := (w.member? p).any (·.isArmed)

def isLocked (p : Party) (w : World) : Bool := (w.member? p).any (·.isLocked)

def reading? (p : Party) (x : Stimulus) (w : World) : Option Reading := x.reading? p fun s => w.hears p s

def observe (p : Party) (c : World × Session) (x : Stimulus) : World × Session :=
  let v := (c.1.meet .never x).state
  (v, c.2.next (c.1.isArmed p) (v.isArmed p) c.1.now (c.1.reading? p x) (c.1.hears p .stow))

/-- A run, with the diary of a display. -/
def watch (p : Party) (w : World) (h : List Stimulus) : World × Session :=
  h.foldl (observe p) (w, ⟨w.now, []⟩)

theorem watch_snoc (p : Party) (w : World) (h : List Stimulus) (x : Stimulus) :
    w.watch p (h ++ [x]) = observe p (w.watch p h) x := List.foldl_concat ..

variable {c : Client} {mode : AttentiveMode} {window : Span} {p : Party}

theorem isArmed_of_stands {w : World} {s : Standing} {b : Duty Attentive} (hs : w.standing p = some s)
    (hb : Attentive.Stands c mode window b s) : w.isArmed p = b.armed := by
  obtain ⟨k, hk, rfl⟩ := Option.map_eq_some_iff.mp hs
  obtain ⟨enabled, rfl, _⟩ := hb
  rw [isArmed, hk]
  rfl

theorem isLocked_of_stands {w : World} {s : Standing} {b : Duty Attentive} (hs : w.standing p = some s)
    (hb : Attentive.Stands c mode window b s) : w.isLocked p = b.core.lock.locked := by
  obtain ⟨k, hk, rfl⟩ := Option.map_eq_some_iff.mp hs
  obtain ⟨enabled, rfl, _⟩ := hb
  rw [isLocked, hk]
  rfl

theorem hears_of_standing {w : World} {s : Standing} (hs : w.standing p = some s) :
    (fun t => w.hears p t) = s.hears := by
  obtain ⟨k, _, rfl⟩ := Option.map_eq_some_iff.mp hs
  rfl

theorem callsOf_of_standing {w : World} {s : Standing} (hs : w.standing p = some s) : w.callsOf p = s.calls := by
  obtain ⟨k, _, rfl⟩ := Option.map_eq_some_iff.mp hs
  rfl

/-- What a party that alone draws on the power service asks of it is there to see. -/
theorem power_of_calls {w v : World} (hw : w.SoleDrawer p) (hv : v.SoleDrawer p) {s s' : Standing}
    (hs : w.standing p = some s) (hs' : v.standing p = some s') {qs : List Request}
    (hcalls : s'.calls = s.calls ++ qs.filterMap Request.call?) :
    v.log.power = w.log.power ++ qs.filterMap Request.power? := by
  rw [hv.power, hw.power, callsOf_of_standing hs', callsOf_of_standing hs, hcalls, List.filterMap_append,
    List.filterMap_filterMap]
  congr 2
  exact funext fun q => q.power?_eq_bind.symm

/-- A display in service, alone with the wake holds in an orderly world; `K` relates
whether it is armed, its memory, its stow registration and the diary. -/
structure Watched (c : Client) (mode : AttentiveMode) (window : Span) (p : Party)
    (K : Bool → Attentive → Bool → Session → Prop) (w : World) (d : Session) : Prop where
  orderly : w.Orderly
  display : w.SoleDisplay p
  drawer : w.SoleDrawer p
  standing : ∃ s b, w.standing p = some s ∧ Attentive.Stands c mode window b s ∧
    K b.armed b.core (s.hears .stow) d

/-- What a turn of a watched display leaves to see in the world. -/
structure Turned (c : Client) (mode : AttentiveMode) (window : Span) (p : Party) (x : Stimulus) (w v : World)
    (b b' : Duty Attentive) (qs : List Request) : Prop where
  armed : w.isArmed p = b.armed ∧ v.isArmed p = b'.armed
  power : v.log.power = w.log.power ++ qs.filterMap Request.power?
  turn : Attentive.Turn c mode window w.now x.callsOff (w.reading? p x) (b.armed, b.core) (b'.armed, b'.core) qs

variable {K : Bool → Attentive → Bool → Session → Prop}

/-- A relation that no turn breaks. -/
def Lasts (c : Client) (mode : AttentiveMode) (window : Span) (K : Bool → Attentive → Bool → Session → Prop) :
    Prop :=
  ∀ {now : Instant} {off : Bool} {r? : Option Reading} {armed armed' : Bool} {a a' : Attentive}
    {qs : List Request} {listening : Bool} {d : Session},
    K armed a listening d → Attentive.Turn c mode window now off r? (armed, a) (armed', a') qs →
    K armed' a' (qs.foldl (Request.hears .stow) listening) (d.next armed armed' now r? listening)

theorem Watched.meet (hK : Lasts c mode window K) {w : World} {d : Session} (h : Watched c mode window p K w d)
    (x : Stimulus) :
    ∃ v b b' qs, w.meet .never x = .done v ∧ Turned c mode window p x w v b b' qs ∧
      K b.armed b.core (w.hears p .stow) d ∧
      Watched c mode window p K v
        (d.next (w.isArmed p) (v.isArmed p) w.now (w.reading? p x) (w.hears p .stow)) := by
  obtain ⟨s, b, hs, hb, hk⟩ := h.standing
  obtain ⟨v, hv, hm⟩ := meet_never h.orderly x
  obtain ⟨b', qs, hb', hhears, hcalls, hturn⟩ := Attentive.turned_met hb w.now p x
  have hs' : v.standing p = some (s.met w.now p x) := by rw [hm.standing, hs, Option.map_some]
  have hdrawer := hm.drawer p h.display h.drawer
  have hear := hears_of_standing hs
  have hturned : Turned c mode window p x w v b b' qs := by
    refine ⟨⟨isArmed_of_stands hs hb, isArmed_of_stands hs' hb'⟩, ?_, ?_⟩
    · exact power_of_calls h.drawer hdrawer hs hs' hcalls
    · rw [reading?, hear]
      exact hturn
  have hk' : K b.armed b.core (w.hears p .stow) d := by rwa [congrFun hear .stow]
  refine ⟨v, b, b', qs, hv, hturned, hk', hm.orderly, hm.soleDisplay h.display, hdrawer, _, b', hs', hb', ?_⟩
  rw [hturned.armed.1, hturned.armed.2, hhears, ← congrFun hear .stow]
  exact hK hk' hturned.turn

/-- What a step of a watched run comes to. -/
theorem Watched.observe (hK : Lasts c mode window K) {w : World} {d : Session} (h : Watched c mode window p K w d)
    (x : Stimulus) :
    ∃ v e b b' qs, (World.observe p (w, d) x = (v, e) ∧
        e = d.next (w.isArmed p) (v.isArmed p) w.now (w.reading? p x) (w.hears p .stow)) ∧
      Turned c mode window p x w v b b' qs ∧ K b.armed b.core (w.hears p .stow) d ∧
      Watched c mode window p K v e := by
  obtain ⟨v, b, b', qs, hv, ht, hk, hw⟩ := h.meet hK x
  refine ⟨v, _, b, b', qs, ⟨?_, rfl⟩, ht, hk, hw⟩
  rw [World.observe, hv]
  rfl

/-- A reading that an armed display gets leaves it armed and enters the diary. -/
theorem Turned.reading {x : Stimulus} {w v : World} {b b' : Duty Attentive} {qs : List Request}
    (h : Turned c mode window p x w v b b' qs) (ha : w.isArmed p = true) {r : Reading}
    (hr : w.reading? p x = some r) : v.isArmed p = true := by
  obtain ⟨hw, hv⟩ := h.armed
  rw [hv]
  have hturn := h.turn
  rw [← hw, ha, hr] at hturn
  generalize b'.armed = armed' at hturn
  generalize b'.core = a' at hturn
  cases hturn with
  | rest h hq => rfl
  | disarm ho =>
    rw [World.reading?, Stimulus.reading?_of_callsOff ho] at hr
    cases hr
  | hear ho hr => rfl

theorem Watched.watch (hK : Lasts c mode window K) {w : World} (h : Watched c mode window p K w ⟨w.now, []⟩)
    (l : List Stimulus) :
    w.run .never l = .done (w.watch p l).1 ∧ Watched c mode window p K (w.watch p l).1 (w.watch p l).2 := by
  induction l using List.reverseRecOn with
  | nil => exact ⟨rfl, h⟩
  | append_singleton l x ih =>
    obtain ⟨hr, hw⟩ := ih
    obtain ⟨v, b, b', qs, hv, _, _, hw'⟩ := hw.meet hK x
    rw [watch_snoc, World.observe, hv]
    exact ⟨run_snoc hr hv, hw'⟩

end World

namespace Attentive

def rig (start : Instant) (t : Timings) (mode : AttentiveMode) (enabled : Bool) : World :=
  (World.initial start t.dozeInterval t.vibration true).add t (.attentive mode enabled)

def display : Party := .observer 0

variable (start : Instant) (t : Timings) (mode : AttentiveMode) (enabled : Bool)

theorem rig_eq : rig start t mode enabled =
    { World.initial start t.dozeInterval t.vibration true with
      poll := ⟨[(⟨1⟩, .withdrawn)], .idle, 2⟩
      observers := [.attentive ⟨1⟩ mode t.stowWindow (.initial (.initial mode t) enabled)]
      order := [0] } := by
  simp only [rig, World.add, World.append_vote]
  rw [World.voted_first _ _ rfl rfl]
  rfl

theorem power_rig : (rig start t mode enabled).log.power = [] := by
  rw [rig_eq]
  rfl

theorem standing_rig (p : Party) : (rig start t mode enabled).standing p =
    if p = display then
      some ⟨.observer (.attentive ⟨1⟩ mode t.stowWindow (.initial (.initial mode t) enabled)), fun _ => false,
        some .withdrawn, []⟩
    else none := by
  rw [rig_eq]
  cases p with
  | observer i =>
    match i with
    | 0 => rfl
    | n + 1 => rfl
  | _ => rfl

theorem watched_rig {K : Bool → Attentive → Bool → Session → Prop}
    (h : K false (.initial mode t) false ⟨start, []⟩) :
    World.Watched ⟨1⟩ mode t.stowWindow display K (rig start t mode enabled) ⟨(rig start t mode enabled).now, []⟩ where
  orderly := by
    refine ⟨?_, fun i hi => ?_, fun p q d hp hq => ?_, ?_⟩
    · rw [rig_eq]
      exact List.nodup_singleton 0
    · rw [standing_rig] at hi
      split at hi
      · rename_i he
        cases he
        rw [rig_eq]
        exact List.mem_singleton.mpr rfl
      · cases hi
    · rw [World.clientOf, standing_rig] at hp hq
      split at hp
      · split at hq
        · rename_i hp' hq'
          exact hp'.trans hq'.symm
        · cases hq
      · cases hp
    · rw [rig_eq]
      exact List.nodup_nil
  display p s hs hp := by
    rw [standing_rig, if_neg hp] at hs
    cases hs
  drawer := by
    rw [rig_eq]
    exact fun e he => absurd he List.not_mem_nil
  standing := by
    refine ⟨_, ⟨false, false, .initial mode t⟩, (standing_rig start t mode enabled display).trans (if_pos rfl),
      ⟨enabled, rfl, rfl, fun _ => rfl⟩, ?_⟩
    rw [rig_eq]
    exact h

end Attentive

end GestureActions
