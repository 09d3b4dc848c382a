import GestureActions.Proofs.Attentive.Session

/-! # The merging mode

The lock follows what the last object gesture and the last stow reading of a session say
together, and every call to the power service comes of a change of that.
-/
namespace GestureActions

open Request

namespace Session

def object (d : Session) : Bool := (d.receipts.filterMap (·.reading.object?)).getLastD false

def stowed (d : Session) : Bool := (d.receipts.filterMap (·.reading.stow?)).getLastD false

def shouldLock (d : Session) : Bool := d.object && !d.stowed

theorem object_snoc (t : Instant) (l : List Receipt) (k : Receipt) :
    object ⟨t, l ++ [k]⟩ = k.reading.object?.getD (object ⟨t, l⟩) := getLastD_filterMap_snoc ..

theorem stowed_snoc (t : Instant) (l : List Receipt) (k : Receipt) :
    stowed ⟨t, l ++ [k]⟩ = k.reading.stow?.getD (stowed ⟨t, l⟩) := getLastD_filterMap_snoc ..

end Session

namespace ScreenLock

/-- The calls that go with a lock taken or left in the course of a session. -/
def turnover (hold : Span) : Bool → Bool → List PowerCall
  | false, true => [.acquire .screenBright]
  | true, false => [.acquireFor .screenDim hold, .release .screenBright]
  | _, _ => []

end ScreenLock

/-- What a stimulus asks of the power service, given whether the lock was due and whether
it is due now. -/
def Stimulus.powerDue (hold : Span) (was is : Bool) : Stimulus → List PowerCall
  | emission _ | delivery _ _ => ScreenLock.turnover hold was is
  | x => if was && x.callsOff then [.release .screenBright] else []

/-- Whether a display should hold its lock. -/
def World.lockDue (p : Party) (w : World) (d : Session) : Bool := w.isArmed p && d.shouldLock

namespace Attentive

theorem power_powered (c : ScreenLock.Change) : (powered c).filterMap Request.power? = c.calls := by
  rw [powered, List.filterMap_map]
  exact List.filterMap_some

/-- A display whose lock is as its memory says. -/
structure Settled (hold : Span) (object stowed : Bool) (a : Attentive) : Prop where
  hold_eq : a.lock.dimHold = some hold
  object_eq : a.proximity.objectDetected = object
  stowed_eq : a.proximity.stowed = stowed
  lock_eq : a.lock.locked = (object && !stowed)

def Resettled (hold : Span) (was : Bool) (object stowed : Bool) (b : Attentive × List Request) : Prop :=
  b.1.Settled hold object stowed ∧
    b.2.filterMap Request.power? = ScreenLock.turnover hold was (object && !stowed)

variable {hold : Span} {object stowed : Bool} {a : Attentive}

theorem Settled.rest (h : a.Settled hold object stowed) :
    Resettled hold (object && !stowed) object stowed (a, []) := by
  refine ⟨h, ?_⟩
  cases object && !stowed <;> rfl

theorem resettled_decide (now : Instant) (hh : a.lock.dimHold = some hold)
    (ho : a.proximity.objectDetected = object) (hs : a.proximity.stowed = stowed) :
    Resettled hold a.lock.locked object stowed (a.decide now) := by
  obtain ⟨p, ⟨_, l, u⟩, listening, done⟩ := a
  dsimp only at hh ho hs
  subst hh
  have hp : p.shouldLock = (object && !stowed) := by rw [Proximity.shouldLock, ho, hs]
  unfold Attentive.decide
  rw [Resettled, power_powered]
  dsimp only
  rw [hp]
  cases hl : object && !stowed <;> cases l <;> exact ⟨⟨rfl, ho, hs, hl.symm⟩, rfl⟩

theorem Settled.gesture (h : a.Settled hold object stowed) (now : Instant) (g : Gesture) :
    Resettled hold (object && !stowed) (g.object?.getD object) stowed (a.mergedGesture true now g) := by
  rw [← h.lock_eq]
  cases g with
  | objectDetected =>
    exact resettled_decide (a := { a with proximity := a.proximity.setObject true now }) now h.hold_eq rfl h.stowed_eq
  | objectNotDetected =>
    exact resettled_decide (a := { a with proximity := a.proximity.setObject false now }) now h.hold_eq rfl h.stowed_eq
  | _ =>
    rw [h.lock_eq]
    exact h.rest

theorem Settled.stow (h : a.Settled hold object stowed) (now : Instant) (v : Bool) :
    Resettled hold (object && !stowed) object v (a.mergedStow now v) := by
  rw [← h.lock_eq]
  exact resettled_decide (a := { a with proximity := a.proximity.setStowed v now }) now h.hold_eq h.object_eq rfl

theorem Settled.hear (h : a.Settled hold object stowed) (window : Span) (now : Instant) (r : Reading) :
    Resettled hold (object && !stowed) (r.object?.getD object) (r.stow?.getD stowed)
      (a.hear .stateMerge window true now r) := by
  rcases hear_cases .stateMerge window now r a with ⟨ho, hs, hr⟩ | ⟨g, ho, hs, hr⟩ | ⟨v, ho, hs, hr⟩
  · rw [ho, hs, hr]
    exact h.rest
  · rw [ho, hs, hr]
    exact h.gesture now g
  · rw [ho, hs, hr]
    exact h.stow now v

/-- How a display in the merging mode keeps its diary in mind. -/
structure Merged (hold : Span) (armed : Bool) (a : Attentive) (_ : Bool) (d : Session) : Prop where
  hold_eq : a.lock.dimHold = some hold
  settled : armed = true → a.Settled hold d.object d.stowed
  idle : armed = false → a.lock.locked = false

theorem Merged.lasts (c : Client) (hold window : Span) : World.Lasts c .stateMerge window (Merged hold) := by
  intro now off r? armed armed' a a' qs listening d hk ht
  cases ht with
  | rest h hq =>
    cases armed with
    | true =>
      obtain ⟨_, rfl⟩ := h rfl
      rw [Session.next_still]
      exact ⟨hk.hold_eq, hk.settled, hk.idle⟩
    | false => exact ⟨hk.hold_eq, nofun, hk.idle⟩
  | arm ho hr => exact ⟨hk.hold_eq, fun _ => ⟨hk.hold_eq, rfl, rfl, hk.idle rfl⟩, nofun⟩
  | disarm ho =>
    obtain ⟨hh, _, _⟩ := hk
    obtain ⟨p, ⟨hold, l, u⟩, stow, done⟩ := a
    refine ⟨?_, nofun, fun _ => ?_⟩
    · cases l <;> exact hh
    · cases l <;> rfl
  | hear ho hr =>
    rename_i r
    subst hr
    obtain ⟨t, l⟩ := d
    obtain ⟨hb, _⟩ := (hk.settled rfl).hear window now r
    rw [Session.next_reading]
    refine ⟨hb.hold_eq, fun _ => ?_, nofun⟩
    rw [Session.object_snoc, Session.stowed_snoc]
    exact hb

theorem power_of_readClock {qs : List Request} (hq : ∀ q ∈ qs, q = .readClock) :
    qs.filterMap Request.power? = [] := by
  refine List.filterMap_eq_nil_iff.mpr fun q hm => ?_
  rw [hq q hm]
  rfl

theorem power_disarm (c : Client) (a : Attentive) :
    (a.disarm c).2.filterMap Request.power? = if a.lock.locked then [.release .screenBright] else [] := by
  obtain ⟨p, ⟨hold, l, u⟩, stow, done⟩ := a
  cases l <;> cases stow <;> rfl

theorem powerDue_idle (x : Stimulus) (hold : Span) : x.powerDue hold false false = [] := by
  cases x <;> rfl

theorem powerDue_same {x : Stimulus} (h : x.callsOff = false) (hold : Span) (due : Bool) :
    x.powerDue hold due due = [] := by
  cases x with
  | event e => simp [Stimulus.powerDue, h]
  | clock t => cases due <;> rfl
  | _ => cases due <;> rfl

/-- Every call to the power service comes of a change of what the diary says. -/
theorem Merged.power {c : Client} {window : Span} {now : Instant} {p : Party} {hears : Sensor → Bool}
    {x : Stimulus} {armed armed' : Bool} {a a' : Attentive} {qs : List Request} {listening : Bool} {d : Session}
    (hk : Merged hold armed a listening d)
    (ht : Turn c .stateMerge window now x.callsOff (x.reading? p hears) (armed, a) (armed', a') qs) :
    qs.filterMap Request.power? = x.powerDue hold (armed && d.shouldLock)
      (armed' && (d.next armed armed' now (x.reading? p hears) listening).shouldLock) := by
  generalize hr : x.reading? p hears = r? at ht
  cases ht with
  | rest h hq =>
    rw [power_of_readClock hq]
    cases armed with
    | true =>
      obtain ⟨ho, rfl⟩ := h rfl
      rw [Session.next_still]
      exact (powerDue_same ho hold _).symm
    | false => exact (powerDue_idle x hold).symm
  | arm ho _ => exact (powerDue_idle x hold).symm
  | disarm ho =>
    have hd : x.powerDue hold (true && d.shouldLock) false = if d.shouldLock then [.release .screenBright] else [] := by
      cases x with
      | event e => simp [Stimulus.powerDue, ho]
      | _ => cases ho
    rw [power_disarm, (hk.settled rfl).lock_eq]
    exact hd.symm
  | hear ho hs =>
    rename_i r
    subst hs
    obtain ⟨t, l⟩ := d
    obtain ⟨_, hp⟩ := (hk.settled rfl).hear window now r
    have hd : x.powerDue hold (true && Session.shouldLock ⟨t, l⟩) (true && Session.shouldLock ⟨t, l ++ [⟨r, now, listening⟩]⟩) =
        ScreenLock.turnover hold (Session.shouldLock ⟨t, l⟩) (Session.shouldLock ⟨t, l ++ [⟨r, now, listening⟩]⟩) := by
      cases x with
      | emission s => rfl
      | delivery s q => rfl
      | event e => cases hr
      | clock u => cases hr
    rw [Session.next_reading, hd, Session.shouldLock, Session.shouldLock, Session.object_snoc, Session.stowed_snoc]
    exact hp

theorem Merged.initial (t : Timings) (start : Instant) :
    Merged t.dimHold false (.initial .stateMerge t) false ⟨start, []⟩ := ⟨rfl, nofun, fun _ => rfl⟩

theorem Merged.watched {c : Client} {window : Span} {p : Party} {w : World} {d : Session}
    (h : World.Watched c .stateMerge window p (Merged hold) w d) : w.isLocked p = w.lockDue p d := by
  obtain ⟨s, b, hs, hb, hk⟩ := h.standing
  rw [World.lockDue, World.isArmed_of_stands hs hb, World.isLocked_of_stands hs hb]
  cases ha : b.armed with
  | true => exact (hk.settled ha).lock_eq
  | false => exact hk.idle ha

/-- One step of a watched display asks the power service for what a change of its lock calls for. -/
theorem Merged.observe {c : Client} {window : Span} {p : Party} {w : World} {d : Session}
    (h : World.Watched c .stateMerge window p (Merged hold) w d) (x : Stimulus) :
    let v := (World.observe p (w, d) x).1
    let e := (World.observe p (w, d) x).2
    v.log.power = w.log.power ++ x.powerDue hold (w.lockDue p d) (v.lockDue p e) := by
  obtain ⟨v, e, b, b', qs, ⟨ho, he⟩, ht, hk, _⟩ := h.observe (Merged.lasts _ _ _) x
  have hpower := hk.power ht.turn
  rw [← ht.armed.1, ← ht.armed.2] at hpower
  rw [ho, he]
  exact ht.power.trans (congrArg _ hpower)

/-- In the merging mode a display is locked while it is armed, the last object gesture of
its session is a detected object and the last stow reading, if any, is not true. The
power service is asked for what a change of that calls for: nothing else, and by a
stimulus that calls the display off only for the release. -/
theorem merged_session (start : Instant) (t : Timings) (enabled : Bool) :
    let rig := rig start t .stateMerge enabled
    rig.log.power = [] ∧
    ∀ h,
      let w := (rig.watch display h).1
      let d := (rig.watch display h).2
      rig.run .never h = .done w ∧
      w.isLocked display = w.lockDue display d ∧
      ∀ x,
        let v := (rig.watch display (h ++ [x])).1
        let e := (rig.watch display (h ++ [x])).2
        v.log.power = w.log.power ++ x.powerDue t.dimHold (w.lockDue display d) (v.lockDue display e) := by
  intro rig
  have hrig := watched_rig start t .stateMerge enabled (Merged.initial t start)
  refine ⟨power_rig start t .stateMerge enabled, fun h => ?_⟩
  obtain ⟨hrun, hw⟩ := hrig.watch (Merged.lasts _ _ _) h
  refine ⟨hrun, Merged.watched hw, fun x => ?_⟩
  rw [World.watch_snoc]
  exact Merged.observe hw x

/-- The same said of the lock itself. -/
theorem power_snoc (start : Instant) (t : Timings) (enabled : Bool) (h : List Stimulus) (x : Stimulus) :
    ∃ w v, (rig start t .stateMerge enabled).run .never h = .done w ∧
      (rig start t .stateMerge enabled).run .never (h ++ [x]) = .done v ∧
      v.log.power = w.log.power ++ x.powerDue t.dimHold (w.isLocked display) (v.isLocked display) := by
  have hrig := watched_rig start t .stateMerge enabled (Merged.initial t start)
  obtain ⟨hrun, hw⟩ := hrig.watch (Merged.lasts _ _ _) h
  obtain ⟨hrun', hv⟩ := hrig.watch (Merged.lasts _ _ _) (h ++ [x])
  refine ⟨_, _, hrun, hrun', ?_⟩
  rw [Merged.watched hw, Merged.watched hv, World.watch_snoc]
  exact Merged.observe hw x

end Attentive

end GestureActions
