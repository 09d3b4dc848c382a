import GestureActions.Proofs.Attentive.Session

/-! # The simple mode

The lock follows the last verdict of a session, and the stow sensor is listened to while
the lock is held, until a reading of it retires the listener for the rest of the session.
-/
namespace GestureActions

open Request

namespace Receipt

/-- The deadline is the end of the window, or the last instant if that comes first. -/
def inTime (window : Span) (since : Instant) (k : Receipt) : Bool :=
  k.time.toInt ≤ min (since.toInt + min (window.toNat : Int) Instant.last) Instant.last

def isEffective (window : Span) (since : Instant) (k : Receipt) : Bool :=
  k.listening && k.reading.stow? = some true && k.inTime window since

def isLate (window : Span) (since : Instant) (k : Receipt) : Bool :=
  k.listening && k.reading.stow?.isSome && !k.inTime window since

def verdict? (window : Span) (since : Instant) (k : Receipt) : Option Bool :=
  k.reading.object?.or (if k.isEffective window since then some false else none)

def retires (window : Span) (since : Instant) (k : Receipt) : Bool :=
  k.isEffective window since || k.isLate window since

variable {window : Span} {since : Instant} {k : Receipt}

theorem verdict?_of_isEffective (h : k.isEffective window since = true) : k.verdict? window since = some false := by
  have hs := h
  simp only [isEffective, Bool.and_eq_true, decide_eq_true_eq] at hs
  rw [verdict?, Reading.object?_of_stow? hs.1.2, if_pos h, Option.none_or]

theorem verdict?_of_isLate (h : k.isLate window since = true) : k.verdict? window since = none := by
  simp only [isLate, Bool.and_eq_true, Bool.not_eq_true'] at h
  obtain ⟨v, hv⟩ := Option.isSome_iff_exists.mp h.1.2
  have he : k.isEffective window since = false := by rw [isEffective, h.2, Bool.and_false]
  rw [verdict?, Reading.object?_of_stow? hv, he]
  rfl

end Receipt

namespace Session

/-- Whether the last of the object gestures and effective stow readings of a session is a
detected object. -/
def detected (window : Span) (d : Session) : Bool :=
  (d.receipts.filterMap (·.verdict? window d.since)).getLastD false

def retired (window : Span) (d : Session) : Bool := d.receipts.any (·.retires window d.since)

theorem detected_snoc (window : Span) (t : Instant) (l : List Receipt) (k : Receipt) :
    detected window ⟨t, l ++ [k]⟩ = (k.verdict? window t).getD (detected window ⟨t, l⟩) :=
  getLastD_filterMap_snoc ..

theorem retired_snoc (window : Span) (t : Instant) (l : List Receipt) (k : Receipt) :
    retired window ⟨t, l ++ [k]⟩ = (retired window ⟨t, l⟩ || k.retires window t) := by
  simp [retired]

theorem retired_next {window : Span} {d : Session} (hd : d.retired window = true) {was is : Bool}
    (h : ¬ (was = false ∧ is = true)) (now : Instant) (r? : Option Reading) (listening : Bool) :
    (d.next was is now r? listening).retired window = true := by
  have harm : (is && !was) = false := by
    cases is <;> cases was <;> simp_all
  cases r? with
  | none =>
    simp only [next, harm, Bool.false_eq_true, if_false]
    exact hd
  | some r =>
    simp only [next, harm, Bool.false_eq_true, if_false]
    rw [retired_snoc]
    exact Bool.or_eq_true_iff.mpr (Or.inl hd)

end Session

theorem Proximity.isWithin_eq_inTime (p : Proximity) (window : Span) (k : Receipt) :
    p.isWithin k.time window = k.inTime window p.armedSince := by
  simp only [isWithin, deadline, Receipt.inTime, Int64.le_iff_toInt_le, Instant.toInt_later, Span.capped]

namespace Attentive

/-- A display that listens to the stow sensor while it is locked and not done with it. -/
structure Poised (locked retired : Bool) (since : Instant) (a : Attentive) : Prop where
  lock_eq : a.lock.locked = locked
  done_eq : a.stowDone = retired
  listening_eq : a.stowListening = (locked && !retired)
  since_eq : a.proximity.armedSince = since

/-- A poised display that has become another one, registered as it should be. -/
def Repoised (was is : Bool × Bool) (since : Instant) (b : Attentive × List Request) : Prop :=
  b.1.Poised is.1 is.2 since ∧ b.2.foldl (Request.hears .stow) (was.1 && !was.2) = (is.1 && !is.2)

variable {locked retired : Bool} {since : Instant} {a : Attentive}

theorem Poised.rest (h : a.Poised locked retired since) :
    Repoised (locked, retired) (locked, retired) since (a, []) := ⟨h, rfl⟩

theorem Poised.gesture (h : a.Poised locked retired since) (now : Instant) (g : Gesture) :
    Repoised (locked, retired) (g.object?.getD locked, retired) since (a.simpleGesture true now g) := by
  obtain ⟨p, ⟨hold, l, u⟩, listening, done⟩ := a
  obtain ⟨hl, hd, hs, ht⟩ := h
  dsimp only at hl hd hs ht
  subst hl hd hs ht
  cases g with
  | objectDetected => cases l <;> cases done <;> exact ⟨⟨rfl, rfl, rfl, rfl⟩, rfl⟩
  | objectNotDetected => cases l <;> cases done <;> cases hold <;> exact ⟨⟨rfl, rfl, rfl, rfl⟩, rfl⟩
  | _ => exact ⟨⟨rfl, rfl, rfl, rfl⟩, rfl⟩

theorem Poised.stow (h : a.Poised locked retired since) (window : Span) (now : Instant) (v : Bool) :
    Repoised (locked, retired)
      (locked && (retired || !a.proximity.isWithin now window || !v),
        retired || locked && (!a.proximity.isWithin now window || v))
      since (a.simpleStow window now v) := by
  obtain ⟨p, ⟨hold, l, u⟩, listening, done⟩ := a
  obtain ⟨hl, hd, hs, ht⟩ := h
  dsimp only at hl hd hs ht
  subst hl hd hs ht
  unfold simpleStow
  dsimp only
  cases p.isWithin now window <;> cases l <;> cases done <;> cases v <;> cases hold <;>
    exact ⟨⟨rfl, rfl, rfl, rfl⟩, rfl⟩

theorem Poised.hear (h : a.Poised locked retired since) (window : Span) (now : Instant) (r : Reading) :
    let k : Receipt := ⟨r, now, locked && !retired⟩
    Repoised (locked, retired) ((k.verdict? window since).getD locked, retired || k.retires window since)
      since (a.hear .simple window true now r) := by
  intro k
  have hin : a.proximity.isWithin now window = k.inTime window since := by
    rw [← h.since_eq]
    exact a.proximity.isWithin_eq_inTime window k
  have hobject : r.stow? = none → (k.verdict? window since).getD locked = r.object?.getD locked ∧
      (retired || k.retires window since) = retired := by
    intro hr
    simp [Receipt.verdict?, Receipt.retires, Receipt.isEffective, Receipt.isLate, k, hr]
  rcases hear_cases .simple window now r a with ⟨ho, hs, hr⟩ | ⟨g, ho, hs, hr⟩ | ⟨v, ho, hs, hr⟩
  · obtain ⟨hv, hd⟩ := hobject hs
    rw [hv, hd, ho, hr]
    exact h.rest
  · obtain ⟨hv, hd⟩ := hobject hs
    rw [hv, hd, ho, hr]
    exact h.gesture now g
  · have hv : (k.verdict? window since).getD locked =
        (locked && (retired || !a.proximity.isWithin now window || !v)) := by
      rw [hin]
      simp only [Receipt.verdict?, Receipt.isEffective, k, ho, hs]
      cases k.inTime window since <;> cases locked <;> cases retired <;> cases v <;> simp_all
    have hd : (retired || k.retires window since) =
        (retired || locked && (!a.proximity.isWithin now window || v)) := by
      rw [hin]
      simp only [Receipt.retires, Receipt.isEffective, Receipt.isLate, k, hs]
      cases k.inTime window since <;> cases locked <;> cases retired <;> cases v <;> simp_all
    rw [hv, hd, hr]
    exact h.stow window now v

/-- How a display in the simple mode keeps its diary in mind. -/
structure Simple (window : Span) (armed : Bool) (a : Attentive) (listening : Bool) (d : Session) : Prop where
  registered : listening = a.stowListening
  poised : armed = true → a.Poised (d.detected window) (d.retired window) d.since
  idle : armed = false → a.lock.locked = false ∧ a.stowListening = false

theorem Simple.lasts (c : Client) (window : Span) : World.Lasts c .simple window (Simple window) := by
  intro now off r? armed armed' a a' qs listening d hk ht
  cases ht with
  | rest h hq =>
    rw [hears_of_readClock hq]
    cases armed with
    | true =>
      obtain ⟨_, rfl⟩ := h rfl
      rw [Session.next_still]
      exact hk
    | false => exact ⟨hk.registered, nofun, hk.idle⟩
  | arm ho hr =>
    obtain ⟨hl, hs⟩ := hk.idle rfl
    exact ⟨hk.registered, fun _ => ⟨hl, rfl, hs, rfl⟩, nofun⟩
  | disarm ho =>
    obtain ⟨hreg, _, _⟩ := hk
    obtain ⟨p, ⟨hold, l, u⟩, stow, done⟩ := a
    dsimp only at hreg
    subst hreg
    refine ⟨?_, nofun, fun _ => ⟨?_, rfl⟩⟩
    · cases listening <;> cases l <;> rfl
    · cases l <;> rfl
  | hear ho hr =>
    rename_i r
    subst hr
    obtain ⟨t, l⟩ := d
    have hp := hk.poised rfl
    obtain ⟨hb, hh⟩ := hp.hear window now r
    have hlistening := hk.registered.trans hp.listening_eq
    rw [Session.next_reading, hlistening]
    refine ⟨hh.trans hb.listening_eq.symm, fun _ => ?_, nofun⟩
    rw [Session.detected_snoc, Session.retired_snoc]
    exact hb

theorem Simple.initial (t : Timings) (start : Instant) :
    Simple t.stowWindow false (.initial .simple t) false ⟨start, []⟩ :=
  ⟨rfl, nofun, fun _ => ⟨rfl, rfl⟩⟩

theorem Simple.watched {c : Client} {window : Span} {p : Party} {w : World} {d : Session}
    (h : World.Watched c .simple window p (Simple window) w d) :
    w.hears p .stow = (w.isLocked p && !d.retired window) ∧
    w.isLocked p = (w.isArmed p && d.detected window) := by
  obtain ⟨s, b, hs, hb, hk⟩ := h.standing
  rw [World.isArmed_of_stands hs hb, World.isLocked_of_stands hs hb, congrFun (World.hears_of_standing hs) .stow,
    hk.registered]
  cases ha : b.armed with
  | true =>
    have hp := hk.poised ha
    exact ⟨by rw [hp.listening_eq, hp.lock_eq], hp.lock_eq⟩
  | false =>
    obtain ⟨hl, hs⟩ := hk.idle ha
    exact ⟨by rw [hs, hl]; rfl, hl⟩

section Observing

variable {c : Client} {window : Span} {p : Party} {w : World} {d : Session} {x : Stimulus} {r : Reading}

/-- What a reading that comes while the display listens makes of the lock and the diary. -/
theorem Simple.observe_reading (h : World.Watched c .simple window p (Simple window) w d)
    (hr : w.reading? p x = some r) (hstow : w.hears p .stow = true) :
    let k : Receipt := ⟨r, w.now, w.hears p .stow⟩
    (World.observe p (w, d) x).1.isLocked p = (k.verdict? window d.since).getD (w.isLocked p) ∧
    (World.observe p (w, d) x).2.retired window = (d.retired window || k.retires window d.since) := by
  intro k
  obtain ⟨hreg, hlock⟩ := Simple.watched h
  have hlocked : w.isLocked p = true := by
    rw [hstow] at hreg
    exact (Bool.and_eq_true_iff.mp hreg.symm).1
  obtain ⟨harmed, hdetected⟩ := Bool.and_eq_true_iff.mp (hlock.symm.trans hlocked)
  have hd : Session.detected window ⟨d.since, d.receipts⟩ = true := hdetected
  obtain ⟨v, e, b, b', qs, ho, ht, _, hw⟩ := h.observe (Simple.lasts _ _) x
  have harmed' := ht.reading harmed hr
  have he : e = ⟨d.since, d.receipts ++ [k]⟩ := by
    rw [ho.2, harmed, harmed', hr, Session.next_reading]
  subst he
  rw [ho.1]
  refine ⟨?_, Session.retired_snoc ..⟩
  rw [(Simple.watched hw).2, harmed', Bool.true_and, Session.detected_snoc, hlocked, hd]

theorem Simple.observe_effective (h : World.Watched c .simple window p (Simple window) w d)
    (hr : w.reading? p x = some r)
    (hk : Receipt.isEffective window d.since ⟨r, w.now, w.hears p .stow⟩ = true) :
    (World.observe p (w, d) x).1.isLocked p = false ∧ (World.observe p (w, d) x).2.retired window = true := by
  have hstow : w.hears p .stow = true := by
    simp only [Receipt.isEffective, Bool.and_eq_true] at hk
    exact hk.1.1
  obtain ⟨hv, he⟩ := Simple.observe_reading h hr hstow
  rw [hv, he, Receipt.verdict?_of_isEffective hk, Receipt.retires, hk]
  exact ⟨rfl, Bool.or_true _⟩

theorem Simple.observe_late (h : World.Watched c .simple window p (Simple window) w d)
    (hr : w.reading? p x = some r) (hk : Receipt.isLate window d.since ⟨r, w.now, w.hears p .stow⟩ = true) :
    (World.observe p (w, d) x).1.isLocked p = w.isLocked p ∧
    (World.observe p (w, d) x).2.retired window = true := by
  have hstow : w.hears p .stow = true := by
    simp only [Receipt.isLate, Bool.and_eq_true] at hk
    exact hk.1.1
  obtain ⟨hv, he⟩ := Simple.observe_reading h hr hstow
  rw [hv, he, Receipt.verdict?_of_isLate hk, Receipt.retires, hk, Bool.or_true]
  exact ⟨rfl, Bool.or_true _⟩

theorem Simple.observe_retired (h : World.Watched c .simple window p (Simple window) w d)
    (hd : d.retired window = true) (x : Stimulus) :
    w.isArmed p = false ∧ (World.observe p (w, d) x).1.isArmed p = true ∨
    (World.observe p (w, d) x).2.retired window = true ∧ (World.observe p (w, d) x).1.hears p .stow = false := by
  obtain ⟨v, e, b, b', qs, ho, _, _, hw⟩ := h.observe (Simple.lasts _ _) x
  rw [ho.1]
  by_cases ha : w.isArmed p = false ∧ v.isArmed p = true
  · exact Or.inl ha
  · have he : e.retired window = true := by
      rw [ho.2]
      exact Session.retired_next hd ha ..
    refine Or.inr ⟨he, ?_⟩
    rw [(Simple.watched hw).1, he]
    exact Bool.and_false _

end Observing

/-- In the simple mode a display is registered for the stow sensor while it is locked
and no reading has retired the listener in its session, and it is locked while it is
armed and the last verdict of the session is a detected object. Effective readings
unlock it, late ones do not, and both retire the listener until the next arming. -/
theorem simple_session (start : Instant) (t : Timings) (enabled : Bool) (h : List Stimulus) :
    let rig := rig start t .simple enabled
    let w := (rig.watch display h).1
    let d := (rig.watch display h).2
    rig.run .never h = .done w ∧
    w.hears display .stow = (w.isLocked display && !d.retired t.stowWindow) ∧
    w.isLocked display = (w.isArmed display && d.detected t.stowWindow) ∧
    ∀ x,
      let v := (rig.watch display (h ++ [x])).1
      let e := (rig.watch display (h ++ [x])).2
      (∀ r, w.reading? display x = some r →
        let k : Receipt := ⟨r, w.now, w.hears display .stow⟩
        (k.isEffective t.stowWindow d.since = true →
          v.isLocked display = false ∧ e.retired t.stowWindow = true) ∧
        (k.isLate t.stowWindow d.since = true →
          v.isLocked display = w.isLocked display ∧ e.retired t.stowWindow = true)) ∧
      (d.retired t.stowWindow = true →
        w.isArmed display = false ∧ v.isArmed display = true ∨
        e.retired t.stowWindow = true ∧ v.hears display .stow = false) := by
  intro rig w d
  have hrig := watched_rig start t .simple enabled (Simple.initial t start)
  obtain ⟨hrun, hw⟩ := hrig.watch (Simple.lasts _ _) h
  obtain ⟨hstow, hlock⟩ := Simple.watched hw
  refine ⟨hrun, hstow, hlock, fun x => ?_⟩
  rw [World.watch_snoc]
  refine ⟨fun r hr => ⟨?_, ?_⟩, fun hd => ?_⟩
  · exact Simple.observe_effective hw hr
  · exact Simple.observe_late hw hr
  · exact Simple.observe_retired hw hd x

end Attentive

end GestureActions
