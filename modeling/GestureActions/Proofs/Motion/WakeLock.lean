import GestureActions.Motion.ScreenLock
import GestureActions.Proofs.Observer.Holdings

/-! # What a screen lock asks of the power service

A lock is asked to lock, to unlock and to let go, at whatever instants. A request that
changes it makes the calls that go with the change, one that does not makes none. So the
bright screen is taken and given back in turns, and what is pending is the dim hold of the
last unlocking, whatever was asked after it.
-/
namespace GestureActions

namespace PowerCall

/-- The turns that calls take at the bright screen: taking it or giving it back. -/
def turns (cs : List PowerCall) : List Bool := Holding.bright.changes (cs.map .power)

theorem turns_append (cs ds : List PowerCall) : turns (cs ++ ds) = turns cs ++ turns ds := by
  rw [turns, List.map_append, Holding.changes_append, turns, turns]

theorem isHeld_bright (cs : List PowerCall) : isHeld .screenBright cs = (turns cs).getLastD false := by
  have h := Holding.isHeld_eq (cs.map .power)
  rwa [List.filterMap_map, show Call.power? ∘ Call.power = some from rfl, List.filterMap_some] at h

end PowerCall

namespace ScreenLock

/-- What a lock is asked, at instants that need not be in order. -/
inductive Ask
  | lock (now : Instant)
  | unlock (now : Instant)
  | letGo
  deriving DecidableEq, Repr

/-- Whether a lock is to be locked after a request. -/
def Ask.wants : Ask → Bool
  | lock _ => true
  | _ => false

/-- The calls that go with a request that changes a lock. -/
def Ask.due (dim? : Option Span) : Ask → List PowerCall
  | lock _ => [.acquire .screenBright]
  | unlock _ => dim?.toList.map (.acquireFor .screenDim) ++ [.release .screenBright]
  | letGo => [.release .screenBright]

/-- A request, the lock that it met and what came of it. -/
structure Deed where
  ask : Ask
  met : ScreenLock
  change : Change
  deriving DecidableEq, Repr

/-- When a lock was unlocked, its dim hold taken, if that is what was done. -/
def Deed.unlocked? (d : Deed) : Option Instant :=
  match d.ask with
  | .unlock now => if d.change.changed then some now else none
  | _ => none

def answer (l : ScreenLock) : Ask → Change
  | .lock _ => l.lock
  | .unlock now => l.unlock now
  | .letGo => l.releaseNow

def deeds : ScreenLock → List Ask → List Deed
  | _, [] => []
  | l, a :: r => ⟨a, l, l.answer a⟩ :: deeds (l.answer a).lock r

def after (l : ScreenLock) (asks : List Ask) : ScreenLock := asks.foldl (fun l a => (l.answer a).lock) l

def calls (ds : List Deed) : List PowerCall := ds.flatMap (·.change.calls)

theorem after_snoc (l : ScreenLock) (asks : List Ask) (a : Ask) :
    l.after (asks ++ [a]) = ((l.after asks).answer a).lock := by
  rw [after, List.foldl_append, after, List.foldl_cons, List.foldl_nil]

theorem deeds_snoc (l : ScreenLock) (asks : List Ask) (a : Ask) :
    l.deeds (asks ++ [a]) = l.deeds asks ++ [⟨a, l.after asks, (l.after asks).answer a⟩] := by
  induction asks generalizing l with
  | nil => rfl
  | cons b r ih =>
    rw [List.cons_append, deeds, ih, deeds]
    rfl

theorem calls_snoc (ds : List Deed) (d : Deed) : calls (ds ++ [d]) = calls ds ++ d.change.calls := by
  rw [calls, List.flatMap_append, List.flatMap_singleton, calls]

/-- All that can come of a request to a lock. -/
inductive Answered (l : ScreenLock) : Ask → Change → Prop
  | idle (a : Ask) (h : l.locked = a.wants) : Answered l a ⟨false, l, []⟩
  | locked (now : Instant) (h : l.locked = false) :
    Answered l (.lock now) ⟨true, { l with locked := true }, [.acquire .screenBright]⟩
  | unlocked (now : Instant) (h : l.locked = true) :
    Answered l (.unlock now)
      ⟨true, { l with locked := false, dimUntil := (l.dimHold.map (Instant.later now)).or l.dimUntil },
        l.dimHold.toList.map (.acquireFor .screenDim) ++ [.release .screenBright]⟩
  | letGo (h : l.locked = true) :
    Answered l .letGo ⟨true, { l with locked := false }, [.release .screenBright]⟩

theorem answered (l : ScreenLock) (a : Ask) : Answered l a (l.answer a) := by
  obtain ⟨dim?, locked, u⟩ := l
  cases a with
  | lock now =>
    cases locked with
    | false => exact .locked now rfl
    | true => exact .idle _ rfl
  | unlock now =>
    cases locked with
    | false => exact .idle _ rfl
    | true => cases dim? <;> exact .unlocked now rfl
  | letGo =>
    cases locked with
    | false => exact .idle _ rfl
    | true => exact .letGo rfl

/-- A deed that leaves its lock as it was asked to, says whether that was a change, and
makes the calls that go with a change. -/
structure Deed.Proper (dim? : Option Span) (d : Deed) : Prop where
  locked_eq : d.change.lock.locked = d.ask.wants
  changed_iff : d.change.changed = true ↔ d.met.locked ≠ d.ask.wants
  changed_iff_ne : d.change.changed = true ↔ d.change.lock ≠ d.met
  calls_eq : d.change.calls = if d.change.changed then d.ask.due dim? else []

/-- What the deeds of a lock leave behind: calls in turns, and the end of the dim hold of
the last unlocking. -/
structure Kept (dim? : Option Span) (ds : List Deed) (l : ScreenLock) : Prop where
  dim_eq : l.dimHold = dim?
  turns : alternation? false (PowerCall.turns (calls ds)) = some l.locked
  dimUntil_eq : l.dimUntil = dim?.bind fun d => (ds.filterMap Deed.unlocked?).getLast?.map (Instant.later · d)

variable {dim? : Option Span} {l : ScreenLock} {ds : List Deed} {a : Ask} {c : Change}

theorem Answered.proper (h : Answered l a c) : Deed.Proper l.dimHold ⟨a, l, c⟩ := by
  have hne : ∀ {k : ScreenLock}, k.locked ≠ l.locked → k ≠ l := fun hk he => hk (he ▸ rfl)
  cases h with
  | idle a hl => exact ⟨hl, by simp [hl], by simp, rfl⟩
  | locked now hl => exact ⟨rfl, by simp [hl, Ask.wants], by simp [hne, hl], rfl⟩
  | unlocked now hl => exact ⟨rfl, by simp [hl, Ask.wants], by simp [hne, hl], rfl⟩
  | letGo hl => exact ⟨rfl, by simp [hl, Ask.wants], by simp [hne, hl], rfl⟩

theorem Answered.turns (h : Answered l a c) : alternation? l.locked (PowerCall.turns c.calls) = some c.lock.locked := by
  cases h with
  | idle a hl => rfl
  | locked now hl => rw [hl]; rfl
  | unlocked now hl =>
    rw [hl]
    cases l.dimHold <;> rfl
  | letGo hl => rw [hl]; rfl

theorem Answered.dimHold_eq (h : Answered l a c) : c.lock.dimHold = l.dimHold := by
  cases h <;> rfl

theorem Answered.dimUntil_eq (h : Answered l a c) :
    c.lock.dimUntil = ((Deed.unlocked? ⟨a, l, c⟩).bind fun t => l.dimHold.map (Instant.later t)).or l.dimUntil := by
  cases h with
  | idle a hl => cases a <;> rfl
  | _ => rfl

theorem Kept.snoc (h : Kept dim? ds l) (hc : Answered l a c) : Kept dim? (ds ++ [⟨a, l, c⟩]) c.lock where
  dim_eq := hc.dimHold_eq.trans h.dim_eq
  turns := by
    rw [calls_snoc, PowerCall.turns_append, alternation?_append, h.turns, Option.bind_some]
    exact hc.turns
  dimUntil_eq := by
    rw [hc.dimUntil_eq, h.dimUntil_eq, h.dim_eq, List.filterMap_append, List.getLast?_append]
    cases dim? with
    | none => cases Deed.unlocked? ⟨a, l, c⟩ <;> rfl
    | some d => cases hu : Deed.unlocked? ⟨a, l, c⟩ <;> simp [hu]

theorem kept_initial (dim? : Option Span) : Kept dim? [] (initial dim?) where
  dim_eq := rfl
  turns := rfl
  dimUntil_eq := by cases dim? <;> rfl

theorem kept_after (dim? : Option Span) (asks : List Ask) :
    Kept dim? ((initial dim?).deeds asks) ((initial dim?).after asks) := by
  induction asks using List.reverseRecOn with
  | nil => exact kept_initial dim?
  | append_singleton asks a ih =>
    rw [deeds_snoc, after_snoc]
    exact ih.snoc (answered _ a)

theorem proper_of_mem (dim? : Option Span) (asks : List Ask) :
    ∀ d ∈ (initial dim?).deeds asks, d.Proper dim? := by
  induction asks using List.reverseRecOn with
  | nil => exact nofun
  | append_singleton asks a ih =>
    rw [deeds_snoc, List.forall_mem_append]
    refine ⟨ih, List.forall_mem_singleton.mpr ?_⟩
    have hd := (answered ((initial dim?).after asks) a).proper
    rwa [(kept_after dim? asks).dim_eq] at hd

/-- Dim holds go with unlocking alone, and nothing else is done about the dim screen. -/
theorem Deed.Proper.timedCount_eq {d : Deed} (h : d.Proper dim?) :
    PowerCall.timedCount .screenDim d.change.calls = if d.unlocked?.isSome then dim?.toList.length else 0 := by
  obtain ⟨a, l, changed, k, cs⟩ := d
  rw [h.calls_eq]
  cases changed <;> cases a <;> cases dim? <;> rfl

theorem Deed.Proper.dim_not_mem {d : Deed} (h : d.Proper dim?) :
    .acquire .screenDim ∉ d.change.calls ∧ .release .screenDim ∉ d.change.calls := by
  obtain ⟨a, l, changed, k, cs⟩ := d
  rw [h.calls_eq]
  cases changed <;> cases a <;> simp [Ask.due]

theorem timedCount_calls (h : ∀ d ∈ ds, d.Proper dim?) :
    PowerCall.timedCount .screenDim (calls ds) = (ds.filterMap Deed.unlocked?).length * dim?.toList.length := by
  induction ds with
  | nil => simp [calls, PowerCall.timedCount]
  | cons d r ih =>
    have hd := (h d List.mem_cons_self).timedCount_eq
    have hr := ih fun e he => h e (List.mem_cons_of_mem d he)
    rw [calls, List.flatMap_cons, ← calls, PowerCall.timedCount, List.countP_append, ← PowerCall.timedCount,
      ← PowerCall.timedCount, hd, hr]
    cases hu : d.unlocked? <;> simp [hu, Nat.succ_mul, Nat.add_comm]

theorem Kept.pending_iff (h : Kept dim? ds l) (now u : Instant) :
    l.pending? now = some u ↔ ∃ d t, dim? = some d ∧ (ds.filterMap Deed.unlocked?).getLast? = some t ∧
      u.toInt = min (t.toInt + min (d.toNat : Int) Instant.last) Instant.last ∧ now < u := by
  have hlater : ∀ (t : Instant) (d : Span), Instant.later t d = u ↔
      u.toInt = min (t.toInt + min (d.toNat : Int) Instant.last) Instant.last := by
    intro t d
    rw [← Int64.toInt_inj, Instant.toInt_later, Span.capped, eq_comm]
  rw [pending?, h.dimUntil_eq, Option.filter_eq_some_iff]
  simp only [Option.bind_eq_some_iff, Option.map_eq_some_iff, decide_eq_true_eq, ← hlater]
  constructor
  · rintro ⟨⟨d, hd, t, ht, hu⟩, hn⟩
    exact ⟨d, t, hd, ht, hu, hn⟩
  · rintro ⟨d, t, hd, ht, hu, hn⟩
    exact ⟨⟨d, hd, t, ht, hu⟩, hn⟩

/-- Whatever is asked of a lock, each request makes the calls that go with what it changes.
The bright screen is taken and given back in turns and held while the lock is locked; the
dim one is taken for a while with each unlocking, and nothing else is done about it. What is
pending is the dim hold of the last unlocking. -/
theorem holds_in_turns (dim? : Option Span) (asks : List Ask) :
    let ds := (initial dim?).deeds asks
    let l := (initial dim?).after asks
    (false :: PowerCall.turns (calls ds)).IsChain (· ≠ ·) ∧
    l.locked = PowerCall.isHeld .screenBright (calls ds) ∧
    (.acquire .screenDim ∉ calls ds ∧ .release .screenDim ∉ calls ds) ∧
    PowerCall.timedCount .screenDim (calls ds) = (ds.filterMap Deed.unlocked?).length * dim?.toList.length ∧
    (∀ d ∈ ds, d.Proper dim?) ∧
    ∀ now u, l.pending? now = some u ↔
      ∃ d t, dim? = some d ∧ (ds.filterMap Deed.unlocked?).getLast? = some t ∧
        u.toInt = min (t.toInt + min (d.toNat : Int) Instant.last) Instant.last ∧ now < u := by
  intro ds l
  have hkept := kept_after dim? asks
  have hproper := proper_of_mem dim? asks
  refine ⟨isChain_of_alternation? hkept.turns, ?_, ⟨?_, ?_⟩, timedCount_calls hproper, hproper, hkept.pending_iff⟩
  · rw [PowerCall.isHeld_bright]
    exact (getLastD_of_alternation? hkept.turns).symm
  · rintro h
    obtain ⟨d, hd, hc⟩ := List.mem_flatMap.mp h
    exact (hproper d hd).dim_not_mem.1 hc
  · rintro h
    obtain ⟨d, hd, hc⟩ := List.mem_flatMap.mp h
    exact (hproper d hd).dim_not_mem.2 hc

end ScreenLock

end GestureActions
