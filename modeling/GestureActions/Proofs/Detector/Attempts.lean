import GestureActions.Proofs.Detector.Union

/-! # Votes at a detector that may refuse

Whether the detector refuses what it is handed makes no difference to the poll: the same
settings are handed on at the same votes, and what was refused is missing from what the
detector took. It is behind the poll until a setting is handed on that it does not refuse.
-/
namespace GestureActions

namespace Handover

/-- What was handed on, whether or not it was taken. -/
def offer? : Handover → Option Setting
  | unchanged => none
  | taken s => some s
  | refused s => some s

def taken? : Handover → Option Setting
  | unchanged => none
  | taken s => some s
  | refused _ => none

def answer (refuses : Bool) : Option Setting → Handover
  | none => unchanged
  | some s => if refuses then refused s else taken s

@[simp] theorem offer?_answer (refuses : Bool) (o : Option Setting) : (answer refuses o).offer? = o := by
  cases o with
  | none => rfl
  | some s => cases refuses <;> rfl

theorem taken?_answer_false (o : Option Setting) : (answer false o).taken? = o := by
  cases o <;> rfl

/-- What was handed on last was taken unless it was refused. -/
theorem getLastD_taken {l : List Handover}
    (h : ∀ s, (l.filter (·.offer?.isSome)).getLast? ≠ some (refused s)) :
    (l.filterMap taken?).getLastD .idle = (l.filterMap offer?).getLastD .idle := by
  induction l using List.reverseRecOn with
  | nil => rfl
  | append_singleton l x ih =>
    cases x with
    | unchanged =>
      have hl := ih (by simpa [List.filter_append, offer?] using h)
      simpa [List.filterMap_append, offer?, taken?] using hl
    | taken s => simp [List.filterMap_append, offer?, taken?]
    | refused s => exact absurd (by simp [List.filter_append, offer?]) (h s)

end Handover

namespace PolledDetector

variable {p q : PolledDetector}

def handover (refuses : Bool) (p : PolledDetector) : PollStep → Handover
  | .enrol => .unchanged
  | .vote c b => (p.vote refuses c b.vote).2

/-- A run in which the detector refuses what it is handed in the marked steps. -/
def trial (h : List (PollStep × Bool)) (p : PolledDetector) : PolledDetector :=
  h.foldl (fun p x => p.step x.2 x.1) p

def handovers : List (PollStep × Bool) → PolledDetector → List Handover
  | [], _ => []
  | x :: h, p => p.handover x.2 x.1 :: handovers h (p.step x.2 x.1)

/-- The same steps without a refusal. -/
def spared (h : List (PollStep × Bool)) : List (PollStep × Bool) := h.map fun x => (x.1, false)

theorem handovers_spared (x : PollStep × Bool) (h : List (PollStep × Bool)) (p : PolledDetector) :
    handovers (spared (x :: h)) p =
      p.handover false x.1 :: handovers (spared h) (p.step false x.1) := rfl

theorem trial_spared (h : List (PollStep × Bool)) (p : PolledDetector) :
    trial (spared h) p = run (h.map (·.1)) p := by
  unfold trial run spared
  rw [List.foldl_map, List.foldl_map]

theorem handover_vote (refuses : Bool) (c : Client) (v : Vote) (p : PolledDetector) :
    (p.vote refuses c v).2 = .answer refuses (p.poll.cast c v).2 := by
  unfold vote
  split
  · rename_i hc
    rw [hc]
    rfl
  · rename_i hc
    rw [hc]
    cases refuses <;> rfl

theorem poll_step (hp : p.poll = q.poll) (r r' : Bool) (x : PollStep) :
    (p.step r x).poll = (q.step r' x).poll := by
  cases x with
  | enrol => simp only [step, hp]
  | vote c b => rw [step, step, poll_vote, poll_vote, hp]

theorem handover_step (hp : p.poll = q.poll) (r r' : Bool) (x : PollStep) :
    p.handover r x = .answer r (q.handover r' x).offer? := by
  cases x with
  | enrol => rfl
  | vote c b => rw [handover, handover, handover_vote, handover_vote, Handover.offer?_answer, hp]

theorem detector_step (p : PolledDetector) (r : Bool) (x : PollStep) :
    (p.step r x).detector = (p.handover r x).taken?.elim p.detector (p.detector.take ·) := by
  cases x with
  | enrol => rfl
  | vote c b =>
    simp only [step, handover, vote]
    split
    · rfl
    · split <;> rfl

/-- What is handed on is what the votes ask for from now on, if that is something new. -/
theorem offer?_handover (p : PolledDetector) (r : Bool) (x : PollStep) :
    (p.handover r x).offer? = if (p.step r x).poll.published = p.poll.published then none
      else some (p.step r x).poll.published := by
  cases x with
  | enrol => simp [handover, Handover.offer?, step, Poll.enrol]
  | vote c b =>
    rw [handover, handover_vote, Handover.offer?_answer, step, poll_vote, Poll.handed_cast,
      Poll.published_cast]

theorem poll_trial (hp : p.poll = q.poll) (h : List (PollStep × Bool)) :
    (trial h p).poll = (trial (spared h) q).poll := by
  induction h generalizing p q with
  | nil => exact hp
  | cons x h ih => exact ih (poll_step hp x.2 false x.1)

theorem handovers_eq (hp : p.poll = q.poll) (h : List (PollStep × Bool)) :
    handovers h p = List.zipWith (fun x t => .answer x.2 t.offer?) h (handovers (spared h) q) := by
  induction h generalizing p q with
  | nil => rfl
  | cons x h ih =>
    have hx := handover_step hp x.2 false x.1
    have hh := ih (poll_step hp x.2 false x.1)
    rw [handovers, handovers_spared, List.zipWith_cons_cons, hx, hh]

theorem offers_eq (hp : p.poll = q.poll) (h : List (PollStep × Bool)) :
    (handovers h p).map Handover.offer? = (handovers (spared h) q).map Handover.offer? := by
  induction h generalizing p q with
  | nil => rfl
  | cons x h ih =>
    have hx : (p.handover x.2 x.1).offer? = (q.handover false x.1).offer? := by
      rw [handover_step hp x.2 false x.1, Handover.offer?_answer]
    have hh := ih (poll_step hp x.2 false x.1)
    rw [handovers, handovers_spared, List.map_cons, List.map_cons, hx, hh]

theorem taken_spared (h : List (PollStep × Bool)) (p : PolledDetector) :
    (handovers (spared h) p).map Handover.taken? = (handovers (spared h) p).map Handover.offer? := by
  induction h generalizing p with
  | nil => rfl
  | cons x h ih =>
    have hx : (p.handover false x.1).taken? = (p.handover false x.1).offer? := by
      rw [handover_step rfl false false x.1, Handover.taken?_answer_false, Handover.offer?_answer]
    rw [handovers_spared, List.map_cons, List.map_cons, hx, ih (p.step false x.1)]

theorem recording_trial (h : List (PollStep × Bool)) (p : PolledDetector) :
    (trial h p).detector.recording = p.detector.recording := by
  induction h generalizing p with
  | nil => rfl
  | cons x h ih =>
    refine (ih (p.step x.2 x.1)).trans ?_
    rw [detector_step]
    cases (p.handover x.2 x.1).taken? with
    | none => rfl
    | some s =>
      change (p.detector.take s).recording = _
      unfold Detector.take
      split <;> rfl

theorem taken_trial (hr : p.detector.recording = true) (h : List (PollStep × Bool)) :
    (trial h p).detector.taken = p.detector.taken ++ (handovers h p).filterMap Handover.taken? := by
  induction h generalizing p with
  | nil => simp [trial, handovers]
  | cons x h ih =>
    have hd := p.detector_step x.2 x.1
    rw [show trial (x :: h) p = trial h (p.step x.2 x.1) from rfl, handovers]
    cases ht : (p.handover x.2 x.1).taken? with
    | none =>
      rw [ht, Option.elim_none] at hd
      rw [ih (by rw [hd]; exact hr), hd, List.filterMap_cons_none ht]
    | some s =>
      rw [ht, Option.elim_some, Detector.take, if_pos hr] at hd
      rw [ih (by rw [hd]; exact hr), hd, List.filterMap_cons_some ht, List.append_assoc]
      rfl

/-- The poll has handed on last what it asks for. -/
theorem published_trial (h : List (PollStep × Bool)) (p : PolledDetector) :
    (trial h p).poll.published =
      ((handovers h p).filterMap Handover.offer?).getLastD p.poll.published := by
  induction h generalizing p with
  | nil => rfl
  | cons x h ih =>
    have ho := p.offer?_handover x.2 x.1
    have hh := ih (p.step x.2 x.1)
    rw [show trial (x :: h) p = trial h (p.step x.2 x.1) from rfl, hh, handovers]
    by_cases he : (p.step x.2 x.1).poll.published = p.poll.published
    · rw [if_pos he] at ho
      rw [List.filterMap_cons_none ho, he]
    · rw [if_neg he] at ho
      rw [List.filterMap_cons_some ho, List.getLastD_cons]

theorem asked_trial (recording : Bool) (h : List (PollStep × Bool)) :
    (trial h (fresh recording)).poll.published = PollStep.asked (h.map (·.1)) := by
  rw [poll_trial rfl, trial_spared, published_run]

/-- The next step after a run: where the votes ask for nothing new the detector is left
alone, and what they newly ask for is handed on to it. -/
theorem next_trial (h : List (PollStep × Bool)) (refuses : Bool) (x : PollStep) :
    ((trial h (fresh true)).handover refuses x).offer? =
      if PollStep.asked (h.map (·.1) ++ [x]) = PollStep.asked (h.map (·.1)) then none
      else some (PollStep.asked (h.map (·.1) ++ [x])) := by
  have hx := asked_trial true (h ++ [(x, refuses)])
  rw [trial, List.foldl_concat, ← trial, List.map_append] at hx
  rw [offer?_handover, asked_trial, hx]
  rfl

/-- Without a refusal all that is handed on is taken. -/
theorem taken_trial_spared (h : List (PollStep × Bool)) :
    (trial (spared h) (fresh true)).detector.taken = (handovers h (fresh true)).filterMap Handover.offer? := by
  have htaken := taken_trial (p := fresh true) rfl (spared h)
  have hoffers : (handovers (spared h) (fresh true)).map Handover.taken? =
      (handovers h (fresh true)).map Handover.offer? :=
    (taken_spared h (fresh true)).trans (offers_eq rfl h).symm
  have hmap := congrArg (List.filterMap id) hoffers
  rw [List.filterMap_map, List.filterMap_map] at hmap
  exact htaken.trans hmap

/-- The detector is where the poll is unless it refused what it was handed last. -/
theorem current_trial {h : List (PollStep × Bool)}
    (hlast : ∀ s, ((handovers h (fresh true)).filter (·.offer?.isSome)).getLast? ≠ some (.refused s)) :
    (trial h (fresh true)).detector.current = (trial h (fresh true)).poll.published := by
  have htaken : (trial h (fresh true)).detector.taken = (handovers h (fresh true)).filterMap Handover.taken? :=
    taken_trial rfl h
  rw [Detector.current, htaken, published_trial]
  exact Handover.getLastD_taken hlast

variable {h : List (PollStep × Bool)} {x : PollStep}

/-- Where the votes ask for nothing new the detector is left alone. -/
theorem next_same (he : PollStep.asked (h.map (·.1) ++ [x]) = PollStep.asked (h.map (·.1))) (refuses : Bool) :
    (trial h (fresh true)).handover refuses x = .unchanged ∧
    ((trial h (fresh true)).step refuses x).detector = (trial h (fresh true)).detector := by
  have hoffer : ((trial h (fresh true)).handover refuses x).offer? = none := by rw [next_trial, if_pos he]
  have hunchanged : (trial h (fresh true)).handover refuses x = .unchanged := by
    rw [handover_step rfl refuses refuses x, hoffer]
    rfl
  refine ⟨hunchanged, ?_⟩
  rw [detector_step, hunchanged]
  rfl

/-- What the votes newly ask for is handed on, and with it the detector is where the poll is. -/
theorem next_new (hne : PollStep.asked (h.map (·.1) ++ [x]) ≠ PollStep.asked (h.map (·.1))) :
    (trial h (fresh true)).handover false x = .taken (PollStep.asked (h.map (·.1) ++ [x])) ∧
    ((trial h (fresh true)).step false x).detector.current = PollStep.asked (h.map (·.1) ++ [x]) ∧
    ((trial h (fresh true)).step false x).poll.published = PollStep.asked (h.map (·.1) ++ [x]) := by
  have hoffer : ((trial h (fresh true)).handover false x).offer? = some (PollStep.asked (h.map (·.1) ++ [x])) := by
    rw [next_trial, if_neg hne]
  have htaken : (trial h (fresh true)).handover false x = .taken (PollStep.asked (h.map (·.1) ++ [x])) := by
    rw [handover_step rfl false false x, hoffer]
    rfl
  have hrecording : (trial h (fresh true)).detector.recording = true := recording_trial h (fresh true)
  refine ⟨htaken, ?_, ?_⟩
  · rw [detector_step, htaken]
    exact Detector.current_take hrecording _
  · have hasked := asked_trial true (h ++ [(x, false)])
    rw [trial, List.foldl_concat, List.map_append] at hasked
    exact hasked

/-- A run at a detector that refuses what it is handed in any of the steps, beside the run of
the same steps without a refusal. The votes count all the same and the same settings are
handed on in the same steps; the detector has taken all but the refused ones. It is where the
poll is unless it refused what it was handed last. What it refused comes again no sooner than
the votes ask for something new, and with that it is where the poll is. -/
theorem trial_beside_spared (h : List (PollStep × Bool)) :
    let p := trial h (fresh true)
    let q := trial (spared h) (fresh true)
    let tried := handovers h (fresh true)
    let free := handovers (spared h) (fresh true)
    (∀ c, p.poll.vote? c = q.poll.vote? c) ∧
    p.poll.published = q.poll.published ∧
    tried.map Handover.offer? = free.map Handover.offer? ∧
    tried = List.zipWith (fun x t => .answer x.2 t.offer?) h free ∧
    q.detector.taken = tried.filterMap Handover.offer? ∧
    p.detector.taken = tried.filterMap Handover.taken? ∧
    ((∀ s, (tried.filter (·.offer?.isSome)).getLast? ≠ some (.refused s)) →
      p.detector.current = p.poll.published) ∧
    ∀ x, let votes := h.map (·.1)
      (PollStep.asked (votes ++ [x]) = PollStep.asked votes →
        ∀ refuses, p.handover refuses x = .unchanged ∧ (p.step refuses x).detector = p.detector) ∧
      (PollStep.asked (votes ++ [x]) ≠ PollStep.asked votes →
        p.handover false x = .taken (PollStep.asked (votes ++ [x])) ∧
        (p.step false x).detector.current = PollStep.asked (votes ++ [x]) ∧
        (p.step false x).poll.published = PollStep.asked (votes ++ [x])) := by
  intro p q tried free
  have hpoll : p.poll = q.poll := poll_trial rfl h
  refine ⟨fun c => ?_, ?_, offers_eq rfl h, handovers_eq rfl h, taken_trial_spared h, taken_trial rfl h,
    current_trial, fun x => ⟨next_same, next_new⟩⟩
  · rw [hpoll]
  · rw [hpoll]

end PolledDetector

end GestureActions
