import GestureActions.Proofs.System.Alone

/-! # What can happen to an attentive display

A display that is in service rests, arms, disarms or, while it is armed, takes in a
reading. Which of these a stimulus brings about depends on what the stimulus is and on
whether the display is armed, and everything the display asks follows from it.
-/
namespace GestureActions

open Request

namespace Stimulus

/-- The reading a stimulus brings to a party, given the sensors it is registered for. -/
def reading? (p : Party) (hears : Sensor → Bool) : Stimulus → Option Reading
  | emission r => if hears r.sensor then some r else none
  | delivery r q => if q = p then some r else none
  | _ => none

/-- Whether the host ends the watch of an attentive display. -/
def callsOff : Stimulus → Bool
  | event .screenOff => true
  | event (.preference k v) => k = Preference.attentive.key && !v
  | _ => false

theorem reading?_of_callsOff {x : Stimulus} (h : x.callsOff = true) (p : Party) (hears : Sensor → Bool) :
    x.reading? p hears = none := by
  cases x with
  | event e => rfl
  | _ => cases h

end Stimulus

namespace Standing

variable {s : Standing} {p : Party} {x : Stimulus}

theorem met_of_reading {r : Reading} (h : x.reading? p s.hears = some r) (now : Instant) :
    s.met now p x = s.told now (.reading r) := by
  cases x with
  | emission y =>
    simp only [Stimulus.reading?] at h
    split at h
    · rename_i hy
      cases h
      exact if_pos hy
    · cases h
  | delivery y q =>
    simp only [Stimulus.reading?] at h
    split at h
    · rename_i hq
      cases h
      exact if_pos (decide_eq_true hq)
    · cases h
  | _ => cases h

/-- Where no reading gets through, a member hears of something else or of nothing. -/
theorem met_of_no_reading (h : x.reading? p s.hears = none) (now : Instant) :
    s.met now p x = s ∨ ∃ m, x.message? = some m ∧ (∀ r, m ≠ .reading r) ∧ s.met now p x = s.told now m := by
  cases x with
  | event e =>
    unfold met
    cases hm : (Stimulus.event e).message? with
    | none => exact Or.inl rfl
    | some m =>
      refine Or.inr ⟨m, rfl, fun r hr => ?_, rfl⟩
      rcases Stimulus.eq_of_reading (hr ▸ hm) with he | ⟨q, he⟩ <;> cases he
  | emission y =>
    simp only [Stimulus.reading?] at h
    split at h
    · cases h
    · rename_i hy
      exact Or.inl (if_neg hy)
  | delivery y q =>
    simp only [Stimulus.reading?] at h
    split at h
    · cases h
    · rename_i hq
      exact Or.inl (if_neg fun hr => hq (of_decide_eq_true hr))
  | clock t => exact Or.inl rfl

end Standing

namespace Attentive

/-- One turn of a display, given as being armed and its memory: whether it was called
off, the reading it got, what was before and after, and what it asked meanwhile. -/
inductive Turn (c : Client) (mode : AttentiveMode) (window : Span) (now : Instant) (off : Bool)
    (r? : Option Reading) : Bool × Attentive → Bool × Attentive → List Request → Prop
  | rest {armed : Bool} {a : Attentive} {qs : List Request} (h : armed = true → off = false ∧ r? = none)
      (hq : ∀ q ∈ qs, q = .readClock) : Turn c mode window now off r? (armed, a) (armed, a) qs
  | arm {a : Attentive} (ho : off = false) (hr : r? = none) :
      Turn c mode window now off r? (false, a) (true, (a.arm c mode now).1) (a.arm c mode now).2
  | disarm {a : Attentive} (ho : off = true) :
      Turn c mode window now off r? (true, a) (false, (a.disarm c).1) (a.disarm c).2
  | hear {a : Attentive} {r : Reading} (ho : off = false) (hr : r? = some r) :
      Turn c mode window now off r? (true, a) (true, (a.hear mode window true now r).1)
        (.readClock :: (a.hear mode window true now r).2)

/-- A display in service, armed as its signal and its switch say and locked only if armed. -/
def Stands (c : Client) (mode : AttentiveMode) (window : Span) (d : Duty Attentive) (s : Standing) : Prop :=
  ∃ enabled, s.member = .observer (.attentive c mode window ⟨enabled, some d⟩) ∧
    d.armed = (d.present && enabled) ∧ (d.armed = false → d.core.lock.locked = false)

variable {c : Client} {mode : AttentiveMode} {window : Span}

/-- What a change of its duty is to a display that is called off when it is no longer to be
armed, and that is locked only if it is armed. -/
theorem turn_of_changes {now : Instant} {off : Bool} {d : Duty Attentive} {b : Duty Attentive × List Request}
    (hc : d.Changes (routine c mode window) now b) (hidle : d.armed = false → d.core.lock.locked = false)
    (hoff : off = true → b.1.armed = false) (hon : b.1.armed = false → d.armed = true → off = true) :
    Turn c mode window now off none (d.armed, d.core) (b.1.armed, b.1.core) b.2 ∧
      (b.1.armed = false → b.1.core.lock.locked = false) := by
  have hon' : b.1.armed = true → off = false := fun ha => Bool.eq_false_iff.mpr fun ho =>
    Bool.false_ne_true ((hoff ho).symm.trans ha)
  cases hc with
  | rest => exact ⟨.rest (fun ha => ⟨hon' ha, rfl⟩) nofun, hidle⟩
  | arm ha =>
    rw [ha]
    exact ⟨.arm (hon' rfl) rfl, nofun⟩
  | disarm ha =>
    rw [ha]
    exact ⟨.disarm (hon rfl ha), fun _ => d.core.lock.locked_releaseNow⟩
  | relax ha =>
    have hrelax : (routine c mode window).relax d.core = (d.core, []) := release_of_unlocked (hidle ha)
    rw [hrelax]
    exact ⟨.rest (fun h => absurd (ha.symm.trans h) Bool.false_ne_true) nofun, hidle⟩

structure Turned (c : Client) (mode : AttentiveMode) (window : Span) (now : Instant) (off : Bool)
    (r? : Option Reading) (d d' : Duty Attentive) (s s' : Standing) (qs : List Request) : Prop where
  stands : Stands c mode window d' s'
  hears : ∀ t, s'.hears t = qs.foldl (Request.hears t) (s.hears t)
  calls : s'.calls = s.calls ++ qs.filterMap Request.call?
  turn : Turn c mode window now off r? (d.armed, d.core) (d'.armed, d'.core) qs

variable {d : Duty Attentive} {s : Standing}

theorem turned_rest (hs : Stands c mode window d s) (now : Instant) {off : Bool} {r? : Option Reading}
    (h : d.armed = true → off = false ∧ r? = none) :
    Turned c mode window now off r? d d s s [] where
  stands := hs
  hears t := rfl
  calls := by simp
  turn := .rest h nofun

theorem turned_of_changes {present enabled : Bool} {m : Message} {now : Instant} {off : Bool}
    {b : Duty Attentive × List Request} {k : Member} (hidle : d.armed = false → d.core.lock.locked = false)
    (hc : Duty.Changes (routine c mode window) now { d with present := present } b)
    (hm : s.member.react now m = ⟨[], b.2, k, .observer (.attentive c mode window ⟨enabled, some b.1⟩), []⟩)
    (ha : b.1.armed = (present && enabled))
    (hoff : off = true → b.1.armed = false) (hon : b.1.armed = false → d.armed = true → off = true) :
    ∃ d' qs, Turned c mode window now off none d d' s (s.told now m) qs := by
  obtain ⟨hturn, hidle'⟩ := turn_of_changes hc hidle hoff hon
  refine ⟨b.1, b.2, ⟨enabled, ?_, ?_, hidle'⟩, fun t => ?_, ?_, hturn⟩
  · rw [Standing.told, hm]
  · rw [ha, hc.present]
  · simp [Standing.told, hm, Reaction.requests]
  · simp [Standing.told, hm, Reaction.requests]

theorem turned_screen (hs : Stands c mode window d s) (now : Instant) (on : Bool) :
    ∃ d' qs, Turned c mode window now (!on) none d d' s (s.told now (.notice (.screen on))) qs := by
  obtain ⟨enabled, hk, ha, hidle⟩ := hs
  have harmed := Duty.armed_settle (routine c mode window) now enabled { d with present := on == true }
  refine turned_of_changes hidle (Duty.changes_settle _ now enabled _) (by rw [hk]; rfl) harmed ?_ ?_
  · intro ho
    cases on with
    | true => cases ho
    | false => exact harmed
  · intro hunarmed hwas
    cases on with
    | false => rfl
    | true =>
      have he : enabled = false := harmed.symm.trans hunarmed
      rw [ha, he, Bool.and_false] at hwas
      cases hwas

theorem turned_switch (hs : Stands c mode window d s) (now : Instant) (v : Bool) :
    ∃ d' qs, Turned c mode window now (!v) none d d' s (s.told now (.notice (.preference .attentive v))) qs := by
  obtain ⟨enabled, hk, ha, hidle⟩ := hs
  have harmed := Duty.armed_switched (routine c mode window) now v ha
  refine turned_of_changes hidle (Duty.changes_switched _ now v _) (by rw [hk]; rfl) harmed ?_ ?_
  · intro ho
    cases v with
    | true => cases ho
    | false => exact harmed.trans (Bool.and_false _)
  · intro hunarmed hwas
    cases v with
    | false => rfl
    | true =>
      have hp : d.present = false := (Bool.and_true _).symm.trans (harmed.symm.trans hunarmed)
      rw [ha, hp, Bool.false_and] at hwas
      cases hwas

/-- A reading that gets through is taken in by an armed display and passed over by
another. -/
theorem turned_reading (hs : Stands c mode window d s) (now : Instant) (r : Reading) :
    ∃ d' qs, Turned c mode window now false (some r) d d' s (s.told now (.reading r)) qs := by
  obtain ⟨enabled, hk, ha, hidle⟩ := hs
  obtain ⟨present, armed, a⟩ := d
  cases armed with
  | true =>
    have he : enabled = true := (Bool.and_eq_true_iff.mp ha.symm).2
    subst he
    have hm : s.member.react now (.reading r) =
        ⟨[.readClock], (a.hear mode window true now r).2,
          .observer (.attentive c mode window ⟨true, none⟩),
          .observer (.attentive c mode window ⟨true, some ⟨present, true, (a.hear mode window true now r).1⟩⟩),
          []⟩ := by
      rw [hk]
      rfl
    refine ⟨⟨present, true, (a.hear mode window true now r).1⟩, _, ⟨true, ?_, ha, nofun⟩, fun t => ?_, ?_,
      .hear rfl rfl⟩
    · rw [Standing.told, hm]
    · simp [Standing.told, hm, Reaction.requests]
    · simp [Standing.told, hm, Reaction.requests]
  | false =>
    have hm : s.member.react now (.reading r) = .asking [.readClock] s.member := by
      rw [hk]
      rfl
    refine ⟨⟨present, false, a⟩, [.readClock], ⟨enabled, ?_, ha, hidle⟩, fun t => ?_, ?_,
      .rest (fun h => absurd h Bool.false_ne_true) ?_⟩
    · rw [Standing.told, hm]
      exact hk
    · simp [Standing.told, hm, Reaction.requests, Reaction.asking]
    · simp [Standing.told, hm, Reaction.requests, Reaction.asking]
    · exact fun q hq => List.mem_singleton.mp hq

theorem told_of_ne_switch (hs : Stands c mode window d s) (now : Instant) {q : Preference} (hq : q ≠ .attentive)
    (v : Bool) : s.told now (.notice (.preference q v)) = s := by
  obtain ⟨enabled, hk, _⟩ := hs
  refine Standing.told_of_still ?_
  rw [hk]
  cases q <;> first | rfl | exact absurd rfl hq

theorem told_of_signal (hs : Stands c mode window d s) (now : Instant) {m : Message}
    (hm : (∃ on, m = .ringing on) ∨ ∃ l, m = .line l) : s.told now m = s := by
  obtain ⟨enabled, hk, _⟩ := hs
  refine Standing.told_of_still ?_
  rw [hk]
  rcases hm with ⟨on, rfl⟩ | ⟨l, rfl⟩ <;> rfl

/-- Whatever happens to a display in service is one turn of it. -/
theorem turned_met (hs : Stands c mode window d s) (now : Instant) (p : Party) (x : Stimulus) :
    ∃ d' qs, Turned c mode window now x.callsOff (x.reading? p s.hears) d d' s (s.met now p x) qs := by
  have hrest : s.met now p x = s → x.callsOff = false → x.reading? p s.hears = none →
      ∃ d' qs, Turned c mode window now x.callsOff (x.reading? p s.hears) d d' s (s.met now p x) qs := by
    intro hm ho hr
    rw [hm]
    exact ⟨d, [], turned_rest hs now fun _ => ⟨ho, hr⟩⟩
  cases x with
  | event e =>
    cases e with
    | screenOn => exact turned_screen hs now true
    | screenOff => exact turned_screen hs now false
    | alarm a =>
      refine hrest ?_ rfl rfl
      simp only [Standing.met, Stimulus.message?]
      cases AlarmAction.ofAction? a with
      | none => rfl
      | some a => exact told_of_signal hs now (Or.inl ⟨_, rfl⟩)
    | callState l => exact hrest (told_of_signal hs now (Or.inr ⟨l, rfl⟩)) rfl rfl
    | preference k v =>
      by_cases hk : k = Preference.attentive.key
      · subst hk
        have ho : (Stimulus.event (.preference Preference.attentive.key v)).callsOff = !v := by
          simp [Stimulus.callsOff]
        rw [ho]
        simp only [Standing.met, Stimulus.message?, Preference.ofKey?_key, Option.map_some]
        exact turned_switch hs now v
      · refine hrest ?_ (by simp [Stimulus.callsOff, hk]) rfl
        simp only [Standing.met, Stimulus.message?]
        cases hq : Preference.ofKey? k with
        | none => rfl
        | some q =>
          refine told_of_ne_switch hs now (fun e => hk ?_) v
          rw [← e]
          exact Preference.ofKey?_eq_some.mp hq
  | emission r =>
    by_cases hr : s.hears r.sensor = true
    · simp only [Standing.met, Stimulus.message?, Standing.receives, Stimulus.reading?, hr, if_true]
      exact turned_reading hs now r
    · refine hrest ?_ rfl (if_neg hr)
      exact if_neg hr
  | delivery r q =>
    by_cases hq : q = p
    · simp only [Standing.met, Stimulus.message?, Standing.receives, Stimulus.reading?, hq, if_true, decide_true]
      exact turned_reading hs now r
    · refine hrest ?_ rfl (if_neg hq)
      exact if_neg (by simpa [Standing.receives] using hq)
  | clock t => exact hrest rfl rfl rfl

end Attentive

end GestureActions
