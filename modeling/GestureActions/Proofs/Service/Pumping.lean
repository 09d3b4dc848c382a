import GestureActions.Proofs.System.Telling
import GestureActions.Service.Pump

/-! # The pump against direct dispatch

The thread of a pump takes events from a queue that others fill, until it sees that it is
told to stop or that all senders are gone. Whenever it sees that, and whatever it takes in
which turn, it has then applied every event that was sent before once and in order, and the
world is the one that direct dispatch leads to.
-/
namespace GestureActions

theorem Outcome.each_done {σ α : Type} {f : α → σ → Outcome σ} (h : ∀ a s, ∃ t, f a s = .done t)
    (l : List α) (s : σ) : ∃ t, each f l s = .done t := by
  induction l generalizing s with
  | nil => exact ⟨s, rfl⟩
  | cons a r ih =>
    obtain ⟨u, hu⟩ := h a s
    obtain ⟨t, ht⟩ := ih u
    exact ⟨t, by rw [each, hu]; exact ht⟩

/-- Where nothing is refused every event is taken in. -/
theorem World.receive_never (e : HostEvent) (w : World) : ∃ v, w.receive .never e = .done v := by
  have htell : ∀ m p (u : World), ∃ v, u.tell .never m p = .done v := by
    intro m p u
    cases hk : u.member? p with
    | none => exact ⟨u, by rw [tell, hk]⟩
    | some k =>
      obtain ⟨v, hv, _⟩ := tell_never hk m
      exact ⟨v, hv⟩
  change ∃ v, w.meet .never (.event e) = .done v
  rw [meet_eq]
  cases (Stimulus.event e).message? with
  | none => exact ⟨_, rfl⟩
  | some m => exact Outcome.each_done (htell m) _ _

namespace Pump

variable {refuses : Refusals} {w : World}

theorem applyAll_never (l : List HostEvent) (w : World) : ∃ v, applyAll .never l w = .done v :=
  Outcome.each_done World.receive_never l w

theorem applyAll_append (l r : List HostEvent) (w : World) :
    applyAll refuses (l ++ r) w = (applyAll refuses l w).andThen (applyAll refuses r) :=
  Outcome.each_append _ l r w

/-- What the dispatch of so many events is for the thread that makes it. -/
def report (n : Nat) : Outcome World → Outcome (World × Nat)
  | .done v => .done (v, n)
  | .refused c v => .refused c (v, 0)

/-- Whatever it takes in which turn, a pump applies all that waits. -/
theorem run_eq (l : List HostEvent) (turns : Nat → Turn) (w : World) :
    run refuses l turns w = report l.length (applyAll refuses l w) := by
  induction l generalizing turns w with
  | nil => rfl
  | cons e r ih =>
    unfold run
    cases turns 0 with
    | stopSignal => cases applyAll refuses (e :: r) w <;> rfl
    | nextEvent =>
      have happly : applyAll refuses (e :: r) w = (w.receive refuses e).andThen (applyAll refuses r) := rfl
      rw [happly]
      cases w.receive refuses e with
      | refused c v => rfl
      | done v =>
        have hr := ih (fun n => turns (n + 1)) v
        change _ = report (r.length + 1) (applyAll refuses r v)
        simp only [hr]
        cases applyAll refuses r v <;> rfl

section Successive

theorem sends (l k : List HostEvent) : l.foldlM (fun p e => send e p) ⟨true, k⟩ = .ok ⟨true, k ++ l⟩ := by
  induction l generalizing k with
  | nil => rw [List.append_nil]; rfl
  | cons e r ih =>
    rw [List.foldlM_cons, show send e ⟨true, k⟩ = .ok ⟨true, k ++ [e]⟩ from rfl]
    exact (ih (k ++ [e])).trans (by rw [List.append_assoc]; rfl)

/-- A pump of its own for each list, which is sent the list and then stopped. -/
def successive (refuses : Refusals) : List (List HostEvent × (Nat → Turn)) → World → Except PumpError World
  | [], w => .ok w
  | (l, turns) :: r, w => do
    let p ← l.foldlM (fun p e => send e p) fresh
    successive refuses r (p.stop refuses turns w).2

theorem successive_cons (l : List HostEvent) (turns : Nat → Turn) (bs : List (List HostEvent × (Nat → Turn)))
    (w : World) : successive refuses ((l, turns) :: bs) w =
      successive refuses bs (applyAll refuses l w).state := by
  have hstop : (stop refuses turns ⟨true, l⟩ w).2 = (applyAll refuses l w).state := by
    change (run refuses l turns w).state.1 = _
    rw [run_eq]
    cases applyAll refuses l w <;> rfl
  rw [successive, fresh, sends, ← hstop]
  rfl

/-- Several pumps do what one does, if none of them is cut short. -/
theorem successive_eq (bs : List (List HostEvent × (Nat → Turn))) {w v : World}
    (h : applyAll refuses (bs.flatMap (·.1)) w = .done v) : successive refuses bs w = .ok v := by
  induction bs generalizing w with
  | nil => cases h; rfl
  | cons b bs ih =>
    rw [List.flatMap_cons, applyAll_append] at h
    rw [successive_cons]
    cases hb : applyAll refuses b.1 w with
    | refused c u => rw [hb] at h; exact nomatch h
    | done u => rw [hb] at h; exact ih h

end Successive

section Thread

/-- How far the thread of a pump has got. It is lost at a refused call. -/
inductive Phase
  | looping
  | draining
  | finished
  | lost (c : Collaborator)
  deriving DecidableEq, Repr

def Phase.isActive : Phase → Bool
  | looping | draining => true
  | _ => false

/-- The turns that are left once nothing waits. -/
def Phase.turns : Phase → Nat
  | looping => 2
  | draining => 1
  | _ => 0

/-- How the dispatch of what was taken so far has ended. -/
def Phase.outcome (w : World) : Phase → Outcome World
  | lost c => .refused c w
  | _ => .done w

theorem Phase.outcome_of_isActive {p : Phase} (h : p.isActive = true) (w : World) : p.outcome w = .done w := by
  cases p with
  | lost c => exact nomatch h
  | _ => rfl

/-- The thread of a pump with its queue: whether there are senders left, whether it is told to
stop, and how many events it has applied. -/
structure Thread where
  waiting : List HostEvent
  senders : Bool
  told : Bool
  phase : Phase
  applied : Nat
  world : World

namespace Thread

def start (w : World) : Thread := ⟨[], true, false, .looping, 0, w⟩

/-- A bound on what can still happen, if nothing more is sent. -/
def weight (t : Thread) : Nat :=
  t.waiting.length + t.phase.turns + t.senders.toNat + (!t.told).toNat

end Thread

/-- What happens to a pump: the first three from outside, the others by its thread. -/
inductive Act
  | send (e : HostEvent)
  | hangUp
  | tell
  | apply (e : HostEvent)
  | notice
  | finish
  deriving DecidableEq, Repr

namespace Act

def sent? : Act → Option HostEvent
  | send e => some e
  | _ => none

def taken? : Act → Option HostEvent
  | apply e => some e
  | _ => none

def isOwn : Act → Bool
  | apply _ | notice | finish => true
  | _ => false

end Act

/-- As long as it loops, the thread may take an event as well as notice that it is told to stop;
from then on it takes what is left, and is at an end when nothing is. What is sent to a thread
at an end stays where it is. -/
inductive Step (refuses : Refusals) : Thread → Act → Thread → Prop
  | send {t : Thread} (e : HostEvent) (hs : t.senders = true) :
    Step refuses t (.send e) { t with waiting := t.waiting ++ [e] }
  | hangUp {t : Thread} (hs : t.senders = true) : Step refuses t .hangUp { t with senders := false }
  | tell {t : Thread} (ht : t.told = false) : Step refuses t .tell { t with told := true }
  | apply {t : Thread} {e : HostEvent} {r : List HostEvent} {v : World} (hp : t.phase.isActive = true)
    (hw : t.waiting = e :: r) (hv : t.world.receive refuses e = .done v) :
    Step refuses t (.apply e) { t with waiting := r, applied := t.applied + 1, world := v }
  | fail {t : Thread} {e : HostEvent} {r : List HostEvent} {c : Collaborator} {v : World}
    (hp : t.phase.isActive = true) (hw : t.waiting = e :: r) (hv : t.world.receive refuses e = .refused c v) :
    Step refuses t (.apply e) { t with waiting := r, phase := .lost c, world := v }
  | notice {t : Thread} (hp : t.phase = .looping) (ht : t.told = true) :
    Step refuses t .notice { t with phase := .draining }
  | close {t : Thread} (hp : t.phase = .looping) (hw : t.waiting = []) (hs : t.senders = false) :
    Step refuses t .finish { t with phase := .finished }
  | drained {t : Thread} (hp : t.phase = .draining) (hw : t.waiting = []) :
    Step refuses t .finish { t with phase := .finished }

inductive Runs (refuses : Refusals) (t : Thread) : List Act → Thread → Prop
  | nil : Runs refuses t [] t
  | snoc {as : List Act} {a : Act} {u v : Thread} (h : Runs refuses t as u) (hs : Step refuses u a v) :
    Runs refuses t (as ++ [a]) v

def sent (as : List Act) : List HostEvent := as.filterMap Act.sent?

def taken (as : List Act) : List HostEvent := as.filterMap Act.taken?

/-- What was sent before the pump is told to stop. -/
def queued (as : List Act) : List HostEvent := sent (as.takeWhile (· ≠ .tell))

variable {t u v : Thread} {a : Act} {as bs : List Act}

theorem sent_snoc (as : List Act) (a : Act) : sent (as ++ [a]) = sent as ++ a.sent?.toList := by
  unfold sent
  rw [List.filterMap_append]
  cases a <;> rfl

theorem taken_snoc (as : List Act) (a : Act) : taken (as ++ [a]) = taken as ++ a.taken?.toList := by
  unfold taken
  rw [List.filterMap_append]
  cases a <;> rfl

theorem queued_prefix (as : List Act) : queued as <+: sent as :=
  (List.takeWhile_prefix _).filterMap _

theorem queued_snoc (h : a.sent? = none ∨ .tell ∈ as) : queued (as ++ [a]) = queued as := by
  unfold queued
  induction as with
  | nil =>
    have ha : a.sent? = none := h.resolve_right nofun
    by_cases hn : a = .tell <;> simp [sent, hn, ha]
  | cons b as ih =>
    by_cases hb : b = .tell
    · simp [hb]
    · have hr := ih (h.imp_right fun hm => (List.mem_cons.mp hm).resolve_left (Ne.symm hb))
      unfold sent at hr ⊢
      rw [List.cons_append, List.takeWhile_cons_of_pos (by simpa using hb),
        List.takeWhile_cons_of_pos (by simpa using hb), List.filterMap_cons, List.filterMap_cons, hr]

/-- What was taken is what was sent without what waits, and led to the world as it is. -/
structure Keeps (refuses : Refusals) (w : World) (as : List Act) (t : Thread) : Prop where
  order : sent as = taken as ++ t.waiting
  outcome : applyAll refuses (taken as) w = t.phase.outcome t.world
  applied : (∀ c, t.phase ≠ .lost c) → t.applied = (taken as).length

/-- A step that takes nothing, and with which only what was sent joins the queue. -/
theorem Keeps.aside (h : Keeps refuses w as t) (ha : a.taken? = none)
    (hw : u.waiting = t.waiting ++ a.sent?.toList) (ho : u.phase.outcome u.world = t.phase.outcome t.world)
    (hl : (∀ c, u.phase ≠ .lost c) → ∀ c, t.phase ≠ .lost c) (hn : u.applied = t.applied) :
    Keeps refuses w (as ++ [a]) u := by
  have htaken : taken (as ++ [a]) = taken as := by rw [taken_snoc, ha]; exact List.append_nil _
  refine ⟨?_, ?_, fun hu => ?_⟩
  · rw [sent_snoc, htaken, hw, h.order, List.append_assoc]
  · rw [htaken, ho]
    exact h.outcome
  · rw [htaken, hn]
    exact h.applied (hl hu)

theorem Keeps.sent_next {e : HostEvent} {r : List HostEvent} (h : Keeps refuses w as t) (hw : t.waiting = e :: r) :
    sent (as ++ [.apply e]) = taken (as ++ [.apply e]) ++ r := by
  rw [sent_snoc, taken_snoc, h.order, hw]
  simp [Act.sent?, Act.taken?]

theorem Keeps.outcome_next {e : HostEvent} (h : Keeps refuses w as t) (hp : t.phase.isActive = true) :
    applyAll refuses (taken (as ++ [.apply e])) w = t.world.receive refuses e := by
  rw [taken_snoc, applyAll_append, h.outcome, Phase.outcome_of_isActive hp]
  exact Outcome.each_singleton _ e _

theorem Step.keeps (hs : Step refuses t a u) (h : Keeps refuses w as t) : Keeps refuses w (as ++ [a]) u := by
  cases hs with
  | send => exact h.aside rfl rfl rfl id rfl
  | hangUp => exact h.aside rfl (List.append_nil _).symm rfl id rfl
  | tell => exact h.aside rfl (List.append_nil _).symm rfl id rfl
  | apply hp hw hv =>
    refine ⟨h.sent_next hw, ?_, fun hl => ?_⟩
    · rw [h.outcome_next hp, hv, Phase.outcome_of_isActive hp]
    · rw [taken_snoc, List.length_append, h.applied hl]
      rfl
  | fail hp hw hv => exact ⟨h.sent_next hw, (h.outcome_next hp).trans hv, fun hl => absurd rfl (hl _)⟩
  | notice hp => exact h.aside rfl (List.append_nil _).symm (by rw [hp]; rfl) (fun _ => by simp [hp]) rfl
  | close hp => exact h.aside rfl (List.append_nil _).symm (by rw [hp]; rfl) (fun _ => by simp [hp]) rfl
  | drained hp => exact h.aside rfl (List.append_nil _).symm (by rw [hp]; rfl) (fun _ => by simp [hp]) rfl

theorem Runs.keeps (h : Runs refuses (.start w) as t) : Keeps refuses w as t := by
  induction h with
  | nil => exact ⟨rfl, rfl, fun _ => rfl⟩
  | snoc _ hs ih => exact hs.keeps ih

/-- Why a thread drains or is at an end: it was told, or all senders are gone. -/
structure Ends (as : List Act) (t : Thread) : Prop where
  told : t.told = true ↔ .tell ∈ as
  draining : t.phase = .draining → t.told = true
  finished : t.phase = .finished → queued as <+: taken as ∧ (t.told = true ∨ t.senders = false)

theorem Ends.told_snoc (h : Ends as t) (ha : a ≠ .tell) : t.told = true ↔ .tell ∈ as ++ [a] := by
  rw [h.told]
  simp [Ne.symm ha]

/-- Nothing waits at the end, so everything that was sent is taken. -/
theorem Keeps.queued_prefix_taken (h : Keeps refuses w as t) (hw : t.waiting = []) (ha : a.sent? = none)
    (hn : a.taken? = none) : queued (as ++ [a]) <+: taken (as ++ [a]) := by
  have hs : sent (as ++ [a]) = taken (as ++ [a]) := by
    rw [sent_snoc, taken_snoc, ha, hn, h.order, hw, List.append_nil]
  exact hs ▸ queued_prefix _

theorem Step.ends (hs : Step refuses t a u) (h : Keeps refuses w as t) (he : Ends as t) : Ends (as ++ [a]) u := by
  cases hs with
  | send e hs =>
    refine ⟨he.told_snoc nofun, he.draining, fun hp => ?_⟩
    obtain ⟨hq, ht⟩ := he.finished hp
    have ht : t.told = true := ht.resolve_right (by simp [hs])
    rw [queued_snoc (.inr (he.told.mp ht)), taken_snoc]
    exact ⟨hq.trans (List.prefix_append ..), .inl ht⟩
  | hangUp =>
    refine ⟨he.told_snoc nofun, he.draining, fun hp => ⟨?_, .inr rfl⟩⟩
    rw [queued_snoc (.inl rfl), taken_snoc]
    exact (he.finished hp).1.trans (List.prefix_append ..)
  | tell =>
    refine ⟨by simp, fun _ => rfl, fun hp => ⟨?_, .inl rfl⟩⟩
    rw [queued_snoc (.inl rfl), taken_snoc]
    exact (he.finished hp).1.trans (List.prefix_append ..)
  | apply hp =>
    refine ⟨he.told_snoc nofun, he.draining, fun hf => ?_⟩
    rw [show t.phase = .finished from hf] at hp
    exact nomatch hp
  | fail => exact ⟨he.told_snoc nofun, nofun, nofun⟩
  | notice _ ht => exact ⟨he.told_snoc nofun, fun _ => ht, nofun⟩
  | close _ hw hs => exact ⟨he.told_snoc nofun, nofun, fun _ => ⟨h.queued_prefix_taken hw rfl rfl, .inr hs⟩⟩
  | drained hp hw =>
    exact ⟨he.told_snoc nofun, nofun, fun _ => ⟨h.queued_prefix_taken hw rfl rfl, .inl (he.draining hp)⟩⟩

theorem Runs.ends (h : Runs refuses (.start w) as t) : Ends as t := by
  induction h with
  | nil => exact ⟨by simp [Thread.start], nofun, nofun⟩
  | snoc h hs ih => exact hs.ends h.keeps ih

/-- Every step takes something off the weight, except that it grows with what is sent. -/
theorem Step.weight_lt (hs : Step refuses t a u) : u.weight < t.weight + 2 * a.sent?.toList.length := by
  unfold Thread.weight
  cases hs with
  | send => simp [Act.sent?]; omega
  | hangUp hs => simp [Act.sent?, hs]
  | tell ht => simp [Act.sent?, ht]
  | apply _ hw => simp [Act.sent?, hw]
  | fail hp hw =>
    rw [hw]
    simp [Act.sent?, Phase.turns]
    omega
  | notice hp => simp [Act.sent?, hp, Phase.turns]
  | close hp => simp [Act.sent?, hp, Phase.turns]
  | drained hp => simp [Act.sent?, hp, Phase.turns]

/-- What can happen is bounded by what is sent. -/
theorem Runs.length_le (h : Runs refuses t as u) : as.length + u.weight ≤ t.weight + 2 * (sent as).length := by
  induction h with
  | nil => simp [sent]
  | snoc _ hs ih =>
    have hlt := hs.weight_lt
    rw [sent_snoc, List.length_append, List.length_append, List.length_singleton]
    omega

/-- Once the senders are gone nothing more is sent. -/
theorem Runs.sent_eq_nil (h : Runs refuses t as u) (ht : t.senders = false) : sent as = [] ∧ u.senders = false := by
  induction h with
  | nil => exact ⟨rfl, ht⟩
  | snoc _ hs ih =>
    obtain ⟨hn, hu⟩ := ih
    rw [sent_snoc, hn]
    cases hs with
    | send _ hs => exact absurd hs (by simp [hu])
    | hangUp => exact ⟨rfl, rfl⟩
    | _ => exact ⟨rfl, hu⟩

/-- Once it is told to stop, or the senders are gone, a thread always has something to do until it
is at an end. -/
theorem exists_step (ht : t.told = true ∨ t.senders = false) (hp : t.phase.isActive = true) :
    ∃ a u, a.isOwn = true ∧ Step refuses t a u := by
  cases hw : t.waiting with
  | cons e r =>
    cases hv : t.world.receive refuses e with
    | done v => exact ⟨_, _, rfl, .apply hp hw hv⟩
    | refused c v => exact ⟨_, _, rfl, .fail hp hw hv⟩
  | nil =>
    cases hq : t.phase with
    | draining => exact ⟨_, _, rfl, .drained hq hw⟩
    | looping =>
      rcases ht with ht | hs
      · exact ⟨_, _, rfl, .notice hq ht⟩
      · exact ⟨_, _, rfl, .close hq hw hs⟩
    | finished => rw [hq] at hp; exact nomatch hp
    | lost c => rw [hq] at hp; exact nomatch hp

/-- However a thread came to its end, it comes to what the pump comes to that was sent everything
before its first turn. -/
theorem Runs.run_eq (h : Runs refuses (.start w) as t) (hp : t.phase.isActive = false)
    (hq : queued as = sent as) (turns : Nat → Turn) :
    run refuses (sent as) turns w = report t.applied (t.phase.outcome t.world) := by
  have hk := h.keeps
  rw [Pump.run_eq]
  cases hf : t.phase with
  | finished =>
    have hs : sent as <+: taken as := hq ▸ (h.ends.finished hf).1
    have ht : taken as = sent as := hs.eq_of_length_le (List.IsPrefix.length_le ⟨_, hk.order.symm⟩) |>.symm
    rw [← ht, hk.outcome, hk.applied (by simp [hf]), hf]
  | lost c =>
    rw [hk.order, applyAll_append, hk.outcome, hf]
    rfl
  | looping => rw [hf] at hp; exact nomatch hp
  | draining => rw [hf] at hp; exact nomatch hp

/-- A pump comes to what direct dispatch comes to. Of a thread, whatever happens in which order:
once it is finished it has applied all that was sent before it was told to stop, once and in
order, and counted it; told to stop or without senders it always has a step to make until it is
at an end; and how much can still happen is bounded by what is sent, which is nothing once the
senders are gone. Several pumps in turn do what one does. -/
theorem dispatches (refuses : Refusals) (w : World) :
    (∀ as t, Runs refuses (.start w) as t →
      (t.phase = .finished → queued as <+: taken as ∧ taken as <+: sent as ∧
        t.applied = (taken as).length ∧ applyAll refuses (taken as) w = .done t.world) ∧
      (t.phase.isActive = false → queued as = sent as → ∀ turns,
        run refuses (sent as) turns w = report t.applied (t.phase.outcome t.world)) ∧
      (t.told = true ∨ t.senders = false → t.phase.isActive = true →
        ∃ a u, a.isOwn = true ∧ Step refuses t a u) ∧
      ∀ bs u, Runs refuses t bs u →
        bs.length ≤ t.weight + 2 * (sent bs).length ∧ (t.senders = false → sent bs = [])) ∧
    (∀ l turns, run refuses l turns w = report l.length (applyAll refuses l w)) ∧
    (∀ l, ∃ v, applyAll .never l w = .done v) ∧
    ∀ l v, applyAll refuses l w = .done v →
      ∀ bs : List (List HostEvent × (Nat → Turn)), bs.flatMap (·.1) = l → successive refuses bs w = .ok v := by
  refine ⟨fun as t h => ⟨fun hf => ?_, h.run_eq, exists_step, fun bs u hr => ?_⟩, fun l turns => run_eq l turns w,
    fun l => applyAll_never l w, fun l v hl bs hb => successive_eq bs (hb ▸ hl)⟩
  · have hk := h.keeps
    refine ⟨(h.ends.finished hf).1, ⟨_, hk.order.symm⟩, hk.applied (by simp [hf]), ?_⟩
    rw [hk.outcome, hf]
    rfl
  · exact ⟨le_trans (Nat.le_add_right _ _) hr.length_le, fun ht => (hr.sent_eq_nil ht).1⟩

end Thread

end Pump

end GestureActions
