import GestureActions.Proofs.Detector.Union
import GestureActions.Proofs.Observer.Power

/-! # What belongs to a party

A party's affairs are the sensors it is registered for, the vote of its client and the
calls it made itself. Where nothing is refused, what a party asks moves its own affairs
only, and the detector keeps asking for what the votes ask for. A party that alone asks
for wake holds has all calls to the power service among its own.
-/
namespace GestureActions

open Request

namespace Request

/-- Whether a party is registered for a sensor after a request, given whether it was before. -/
def hears (s : Sensor) (held : Bool) : Request → Bool
  | register t => if t = s then true else held
  | unregister t => if t = s then false else held
  | _ => held

/-- The call a request comes to; a vote comes to none by itself. -/
def call? : Request → Option Call
  | register s => some (.register s)
  | unregister s => some (.unregister s)
  | vote _ _ => none
  | power c => some (.power c)
  | readClock => some .readClock
  | output o => some (.output o)
  | act => some .act
  | record name n => some (.record name n)

/-- Who asks for no more than the time stays registered as before. -/
theorem hears_of_readClock {qs : List Request} (hq : ∀ q ∈ qs, q = .readClock) (t : Sensor) (held : Bool) :
    qs.foldl (hears t) held = held := by
  induction qs with
  | nil => rfl
  | cons q r ih =>
    rw [List.foldl_cons, hq q List.mem_cons_self]
    exact ih fun a ha => hq a (List.mem_cons_of_mem q ha)

theorem power?_eq_bind (q : Request) : q.power? = q.call?.bind Call.power? := by
  cases q <;> rfl

end Request

/-- The two sinks ask for themselves, but are no members. -/
def Party.IsMember (p : Party) : Prop := p ≠ .doze ∧ p ≠ .flashlight

theorem Party.isMember_observer (i : Nat) : (observer i).IsMember := by
  constructor <;> intro h <;> cases h

theorem Party.isMember_alarm : alarm.IsMember := ⟨by decide, by decide⟩

theorem Party.isMember_call : call.IsMember := ⟨by decide, by decide⟩

/-- The outputs that a party has a say in. -/
def Party.Says : Party → Output → Prop
  | alarm, o => o = AlarmSilencer.voice
  | call, o => o = .silence
  | doze, o => o = .broadcast dozePulse
  | flashlight, o => o = .torch ∨ ∃ d, o = .vibrate d
  | observer _, _ => False

/-- Whether a request can come to a call; a vote can to one that configures the detector. -/
def Request.Yields (q : Request) (c : Call) : Prop := q.call? = some c ∨ q.call? = none ∧ c.setting?.isSome = true

/-- A call that one of some requests of a party has come to. -/
def Entry.Of (p : Party) (qs : List Request) (e : Entry) : Prop := e.party = p ∧ ∃ q ∈ qs, q.Yields e.call

/-- A call of a sink. -/
def Entry.OfSink (e : Entry) : Prop :=
  ¬ e.party.IsMember ∧ (e.call = .readClock ∨ ∃ o, e.party.Says o ∧ e.call = .output o)

theorem Entry.Of.mono {p : Party} {qs rs : List Request} (h : ∀ q ∈ qs, q ∈ rs) {e : Entry} (he : e.Of p qs) :
    e.Of p rs := by
  obtain ⟨hp, q, hq, hy⟩ := he
  exact ⟨hp, q, h q hq, hy⟩

namespace World

/-- The log has grown, by entries of one kind. -/
def Adds (P : Entry → Prop) (w v : World) : Prop := ∃ l, v.log = w.log ++ l ∧ ∀ e ∈ l, P e

theorem adds_of_log {P : Entry → Prop} {w v : World} (h : v.log = w.log) : w.Adds P v := by
  refine ⟨[], ?_, nofun⟩
  rw [h, List.append_nil]

theorem Adds.mono {P Q : Entry → Prop} (h : ∀ e, P e → Q e) {w v : World} (hw : w.Adds P v) : w.Adds Q v := by
  obtain ⟨l, hl, hp⟩ := hw
  exact ⟨l, hl, fun e he => h e (hp e he)⟩

theorem Adds.trans {P : Entry → Prop} {w v u : World} (h : w.Adds P v) (k : v.Adds P u) : w.Adds P u := by
  obtain ⟨l, hl, hp⟩ := h
  obtain ⟨l', hl', hp'⟩ := k
  refine ⟨l ++ l', ?_, fun e he => ?_⟩
  · rw [hl', hl, List.append_assoc]
  · rcases List.mem_append.mp he with he | he
    · exact hp e he
    · exact hp' e he

theorem Adds.forall {P : Entry → Prop} {w v : World} (h : w.Adds P v) (hw : ∀ e ∈ w.log, P e) : ∀ e ∈ v.log, P e := by
  obtain ⟨l, hl, hp⟩ := h
  intro e he
  rw [hl] at he
  rcases List.mem_append.mp he with he | he
  · exact hw e he
  · exact hp e he

def hears (p : Party) (s : Sensor) (w : World) : Bool := (s, p) ∈ w.registry.pairs

/-- The calls a party made itself; those that configure the detector are the poll's. -/
def callsOf (p : Party) (w : World) : List Call :=
  (w.log.callsOf p).filter (·.setting?.isNone)

/-- The poll is sound and the detector does what was handed on last. -/
structure InStep (w : World) : Prop where
  sound : w.poll.Sound
  setting : w.log.setting = w.poll.published

/-- Nobody but one party has asked for wake holds. -/
def SoleDrawer (p : Party) (w : World) : Prop := ∀ e ∈ w.log, e.call.power? ≠ none → e.party = p

/-- What the requests of a party come to that took effect, refused others or not. -/
structure Moved (p : Party) (qs : List Request) (w v : World) : Prop where
  clock : v.clock = w.clock
  screen : v.screen = w.screen
  order : v.order = w.order
  hears : ∀ q s, v.hears q s = if q = p then qs.foldl (Request.hears s) (w.hears q s) else w.hears q s
  vote : ∀ c, v.poll.vote? c =
    (votes qs).foldl (fun held u => if u.1 = c then some u.2 else held) (w.poll.vote? c)
  calls : ∀ q, q.IsMember → v.callsOf q =
    if q = p then w.callsOf q ++ qs.filterMap Request.call? else w.callsOf q
  nodup : w.registry.pairs.Nodup → v.registry.pairs.Nodup
  adds : w.Adds (fun e => e.Of p qs ∨ e.OfSink) v

/-- What comes of a party's requests, if none is refused. -/
structure Worked (p : Party) (qs : List Request) (w v : World) : Prop extends Moved p qs w v where
  inStep : w.InStep → v.InStep
  drawer : ∀ r, (r = p ∨ ∀ q ∈ qs, q.IsUnpowered) → w.SoleDrawer r → v.SoleDrawer r

theorem Moved.refl (p : Party) (w : World) : Moved p [] w w where
  clock := rfl
  screen := rfl
  order := rfl
  hears q s := by simp
  vote c := rfl
  calls q hq := by simp
  nodup h := h
  adds := adds_of_log rfl

theorem Moved.trans {p : Party} {qs rs : List Request} {w v u : World} (h : Moved p qs w v)
    (k : Moved p rs v u) : Moved p (qs ++ rs) w u where
  clock := k.clock.trans h.clock
  screen := k.screen.trans h.screen
  order := k.order.trans h.order
  hears q s := by
    rw [k.hears, h.hears]
    split
    · rw [List.foldl_append]
    · rfl
  vote c := by rw [k.vote, h.vote, votes_append, List.foldl_append]
  calls q hq := by
    rw [k.calls q hq, h.calls q hq]
    split
    · rw [List.filterMap_append, List.append_assoc]
    · rfl
  nodup hn := k.nodup (h.nodup hn)
  adds := by
    refine (h.adds.mono fun e he => ?_).trans (k.adds.mono fun e he => ?_)
    · exact he.imp_left (Entry.Of.mono fun q hq => List.mem_append_left rs hq)
    · exact he.imp_left (Entry.Of.mono fun q hq => List.mem_append_right qs hq)

theorem Worked.refl (p : Party) (w : World) : Worked p [] w w where
  toMoved := Moved.refl p w
  inStep h := h
  drawer _ _ h := h

theorem Worked.trans {p : Party} {qs rs : List Request} {w v u : World} (h : Worked p qs w v)
    (k : Worked p rs v u) : Worked p (qs ++ rs) w u where
  toMoved := h.toMoved.trans k.toMoved
  inStep hi := k.inStep (h.inStep hi)
  drawer r hr hw := by
    refine k.drawer r (hr.imp_right fun hq q hm => hq q (List.mem_append_right qs hm)) ?_
    exact h.drawer r (hr.imp_right fun hq q hm => hq q (List.mem_append_left rs hm)) hw

def SameMembers (w v : World) : Prop := ∀ p, v.member? p = w.member? p

theorem SameMembers.trans {w v u : World} (h : SameMembers w v) (k : SameMembers v u) :
    SameMembers w u := fun p => (k p).trans (h p)

def logged (p : Party) (c : Call) (w : World) : World := { w with log := w.log ++ [⟨p, c⟩] }

theorem adds_logged (p : Party) {q : Request} {c : Call} (hq : q.call? = some c) (w : World) :
    w.Adds (fun e => e.Of p [q] ∨ e.OfSink) (w.logged p c) := by
  refine ⟨[⟨p, c⟩], rfl, fun e he => ?_⟩
  rw [List.mem_singleton.mp he]
  exact Or.inl ⟨rfl, q, List.mem_singleton.mpr rfl, Or.inl hq⟩

theorem callsOf_logged (p q : Party) (c : Call) (w : World) :
    (w.logged p c).callsOf q =
      if q = p then w.callsOf q ++ [c].filter (·.setting?.isNone) else w.callsOf q := by
  by_cases hq : q = p
  · simp [callsOf, logged, Log.callsOf, hq]
  · simp [callsOf, logged, Log.callsOf, hq, Ne.symm hq]

theorem settings_logged (p : Party) (c : Call) (w : World) :
    (w.logged p c).log.settings = w.log.settings ++ c.setting?.toList := by
  cases hc : c.setting? <;> simp [logged, Log.settings, hc]

theorem InStep.logged {w : World} (h : w.InStep) (p : Party) {c : Call} (hc : c.setting? = none) :
    (w.logged p c).InStep := by
  refine ⟨h.sound, ?_⟩
  rw [Log.setting, settings_logged, hc, Option.toList_none, List.append_nil]
  exact h.setting

theorem SoleDrawer.logged {p r : Party} {c : Call} {w : World} (hw : w.SoleDrawer r)
    (hc : r = p ∨ c.power? = none) : (w.logged p c).SoleDrawer r := by
  intro e he hp
  rcases List.mem_append.mp he with he | he
  · exact hw e he hp
  · rw [List.mem_singleton.mp he] at hp ⊢
    rcases hc with rfl | hc
    · rfl
    · exact absurd hc hp

/-- All calls to the power service are those of the one party that made any. -/
theorem SoleDrawer.power {p : Party} {w : World} (hw : w.SoleDrawer p) :
    w.log.power = (w.callsOf p).filterMap Call.power? := by
  unfold SoleDrawer at hw
  unfold callsOf
  generalize w.log = l at hw
  induction l with
  | nil => rfl
  | cons e l ih =>
    have hl := ih fun x hx => hw x (List.mem_cons_of_mem e hx)
    simp only [Log.power, Log.callsOf] at hl ⊢
    cases hc : e.call.power? with
    | none => by_cases hp : e.party = p <;> cases hs : e.call.setting? <;> simp [hp, hs, hc, hl]
    | some c =>
      have hp := hw e List.mem_cons_self (by simp [hc])
      have hs : e.call.setting? = none := by
        cases h : e.call with
        | configure s => simp [h, Call.power?] at hc
        | _ => rfl
      simp [hp, hs, hc, hl]

theorem worked_logged (p : Party) {q : Request} {c : Call} (hq : q.call? = some c) (hc : c.setting? = none)
    (hv : q.vote? = none) (hh : ∀ s held, q.hears s held = held) (w : World) :
    Worked p [q] w (w.logged p c) where
  clock := rfl
  screen := rfl
  order := rfl
  hears r s := by
    rw [List.foldl_cons, List.foldl_nil, hh, ite_self]
    rfl
  vote d := by
    rw [votes, List.filterMap_cons_none hv]
    rfl
  calls r _ := by simp [callsOf_logged, hq, hc]
  nodup h := h
  adds := adds_logged p hq w
  inStep h := h.logged p hc
  drawer r hr h := h.logged <| hr.imp_right fun hu => by
    have hp := hu q (List.mem_singleton.mpr rfl)
    rwa [IsUnpowered, power?_eq_bind, hq] at hp

theorem worked_register (p : Party) (s : Sensor) (w : World) :
    Worked p [.register s] w { w.logged p (.register s) with registry := w.registry.register s p } where
  clock := rfl
  screen := rfl
  order := rfl
  hears q t := by
    by_cases hq : q = p
    · by_cases ht : t = s
      · simp [World.hears, Registry.mem_register, Request.hears, hq, ht]
      · simp [World.hears, Registry.mem_register, Request.hears, hq, ht, Ne.symm ht]
    · simp [World.hears, Registry.mem_register, hq]
  vote c := rfl
  calls q _ := callsOf_logged p q (.register s) w
  nodup h := Registry.nodup_register h s p
  adds := adds_logged p rfl w
  inStep h := ⟨h.sound, (h.logged p rfl).setting⟩
  drawer _ _ h := h.logged (c := .register s) (Or.inr rfl)

theorem worked_unregister (p : Party) (s : Sensor) (w : World) :
    Worked p [.unregister s] w { w.logged p (.unregister s) with registry := w.registry.unregister s p } where
  clock := rfl
  screen := rfl
  order := rfl
  hears q t := by
    by_cases hq : q = p
    · by_cases ht : t = s
      · simp [World.hears, Registry.mem_unregister, Request.hears, hq, ht]
      · simp [World.hears, Registry.mem_unregister, Request.hears, hq, ht, Ne.symm ht]
    · simp [World.hears, Registry.mem_unregister, hq]
  vote c := rfl
  calls q _ := callsOf_logged p q (.unregister s) w
  nodup h := Registry.nodup_unregister h s p
  adds := adds_logged p rfl w
  inStep h := ⟨h.sound, (h.logged p rfl).setting⟩
  drawer _ _ h := h.logged (c := .unregister s) (Or.inr rfl)

/-- A vote is cast, and the setting it brings about goes to the detector. -/
def voted (p : Party) (c : Client) (v : Vote) (w : World) : World :=
  { w with
    poll := (w.poll.cast c v).1
    log := w.log ++ (w.poll.cast c v).2.toList.map fun s => ⟨p, .configure s⟩ }

theorem perform_vote_never (p : Party) (c : Client) (v : Vote) (w : World) :
    w.perform .never p (.vote c v) = .done (w.voted p c v) := by
  simp only [perform, voted]
  cases (w.poll.cast c v).2 with
  | none => simp
  | some s => rfl

theorem InStep.voted {w : World} (h : w.InStep) (p : Party) (c : Client) (v : Vote) :
    (w.voted p c v).InStep := by
  refine ⟨h.sound.cast c v, ?_⟩
  have hs : (w.voted p c v).log.settings = w.log.settings ++ (w.poll.cast c v).2.toList := by
    cases hc : (w.poll.cast c v).2 <;> simp [World.voted, Log.settings, hc, Call.setting?]
  change Log.setting _ = (w.poll.cast c v).1.published
  rw [Log.setting, hs, Poll.handed_cast, Poll.published_cast]
  by_cases ht : Poll.tally (Poll.place c v w.poll.votes) = w.poll.published
  · rw [if_pos ht, ht, Option.toList_none, List.append_nil]
    exact h.setting
  · rw [if_neg ht]
    simp

theorem callsOf_configured (p : Party) {w u : World} {cs : List Setting}
    (h : u.log = w.log ++ cs.map fun s => ⟨p, .configure s⟩) (q : Party) : u.callsOf q = w.callsOf q := by
  have hnone : (((cs.map fun s => (⟨p, .configure s⟩ : Entry)).filter (·.party = q)).map (·.call)).filter
      (·.setting?.isNone) = [] := by
    refine List.filter_eq_nil_iff.mpr fun c hc => ?_
    obtain ⟨e, he, rfl⟩ := List.mem_map.mp hc
    obtain ⟨s, _, rfl⟩ := List.mem_map.mp (List.mem_filter.mp he).1
    exact Bool.false_ne_true
  rw [callsOf, h, Log.callsOf, List.filter_append, List.map_append, List.filter_append, hnone, List.append_nil]
  rfl

/-- A vote counts whether or not the detector takes what it brings about. -/
theorem moved_vote (p : Party) (c : Client) (v : Vote) {w u : World} (hc : u.clock = w.clock)
    (hs : u.screen = w.screen) (ho : u.order = w.order) (hr : u.registry = w.registry)
    (hp : u.poll = (w.poll.cast c v).1) {cs : List Setting}
    (hl : u.log = w.log ++ cs.map fun s => ⟨p, .configure s⟩) : Moved p [.vote c v] w u where
  clock := hc
  screen := hs
  order := ho
  hears q s := by
    rw [List.foldl_cons, List.foldl_nil, World.hears, hr]
    exact (ite_self _).symm
  vote d := by
    rw [hp, Poll.vote?, Poll.votes_cast, Poll.latest_place]
    by_cases hd : d = c
    · simp [votes, vote?, hd]
    · simp [votes, vote?, hd, Ne.symm hd, Poll.vote?]
  calls q _ := by
    rw [show [Request.vote c v].filterMap Request.call? = [] from rfl, List.append_nil, ite_self]
    exact callsOf_configured p hl q
  nodup h := hr ▸ h
  adds := by
    refine ⟨_, hl, fun e he => ?_⟩
    obtain ⟨s, _, rfl⟩ := List.mem_map.mp he
    exact Or.inl ⟨rfl, _, List.mem_singleton.mpr rfl, Or.inr ⟨rfl, rfl⟩⟩

theorem worked_voted (p : Party) (c : Client) (v : Vote) (w : World) :
    Worked p [.vote c v] w (w.voted p c v) where
  toMoved := moved_vote p c v rfl rfl rfl rfl rfl rfl
  inStep h := h.voted p c v
  drawer r _ h := by
    intro e he hp
    rcases List.mem_append.mp he with he | he
    · exact h e he hp
    · obtain ⟨s, _, rfl⟩ := List.mem_map.mp he
      exact absurd rfl hp

theorem sameMembers_of_parts {w v : World} (ho : v.observers = w.observers) (ha : v.alarm = w.alarm)
    (hc : v.call = w.call) : SameMembers w v := by
  intro p
  cases p <;> simp only [member?, ho, ha, hc]

theorem perform_never (p : Party) (q : Request) (w : World) :
    ∃ v, w.perform .never p q = .done v ∧ Worked p [q] w v ∧ SameMembers w v := by
  cases q with
  | register s => exact ⟨_, rfl, worked_register p s w, sameMembers_of_parts rfl rfl rfl⟩
  | unregister s => exact ⟨_, rfl, worked_unregister p s w, sameMembers_of_parts rfl rfl rfl⟩
  | vote c u =>
    exact ⟨_, perform_vote_never p c u w, worked_voted p c u w, sameMembers_of_parts rfl rfl rfl⟩
  | _ =>
    exact ⟨_, rfl, worked_logged p rfl rfl rfl (fun _ _ => rfl) w, sameMembers_of_parts rfl rfl rfl⟩

theorem each_never {α : Type} {p : Party} {f : α → World → Outcome World} {g : α → List Request} {l : List α}
    (h : ∀ a ∈ l, ∀ w, ∃ v, f a w = .done v ∧ Worked p (g a) w v ∧ SameMembers w v) (w : World) :
    ∃ v, Outcome.each f l w = .done v ∧ Worked p (l.flatMap g) w v ∧ SameMembers w v := by
  induction l generalizing w with
  | nil => exact ⟨w, rfl, Worked.refl p w, fun _ => rfl⟩
  | cons a r ih =>
    obtain ⟨u, hu, hw, hm⟩ := h a List.mem_cons_self w
    obtain ⟨v, hv, hw', hm'⟩ := ih (fun b hb => h b (List.mem_cons_of_mem a hb)) u
    refine ⟨v, ?_, ?_, hm.trans hm'⟩
    · rw [Outcome.each, hu]
      exact hv
    · rw [List.flatMap_cons]
      exact hw.trans hw'

theorem performAll_never (p : Party) (qs : List Request) (w : World) :
    ∃ v, w.performAll .never p qs = .done v ∧ Worked p qs w v ∧ SameMembers w v := by
  have h := each_never (p := p) (l := qs) (fun q _ => perform_never p q) w
  rwa [List.flatMap_singleton'] at h

theorem carryOut_never {ε σ : Type} {p : Party} (put : σ → World → World)
    {eff : ε → World → Outcome World} {g : ε → List Request} {r : Reaction ε σ}
    (h : ∀ e ∈ r.after, ∀ w, ∃ v, eff e w = .done v ∧ Worked p (g e) w v ∧ SameMembers w v) (w : World) :
    ∃ u v, carryOut .never p put eff r w = .done v ∧
      Worked p (r.before ++ r.during) w u ∧ SameMembers w u ∧
      Worked p (r.after.flatMap g) (put r.next u) v ∧ SameMembers (put r.next u) v := by
  obtain ⟨t, ht, hwt, hmt⟩ := performAll_never p r.before w
  obtain ⟨u, hu, hwu, hmu⟩ := performAll_never p r.during t
  obtain ⟨v, hv, hwv, hmv⟩ := each_never h (put r.next u)
  refine ⟨u, v, ?_, hwt.trans hwu, hmt.trans hmu, hwv, hmv⟩
  rw [carryOut, ht, Outcome.andThen, hu]
  exact hv

end World

end GestureActions
