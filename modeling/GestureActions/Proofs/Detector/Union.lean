import GestureActions.Detector.Device
import Mathlib.Data.List.Destutter

/-! # The poll unites the latest votes

What the poll hands on is determined by the latest vote of each client alone: the
order in which the votes are stored is immaterial. A detector that takes everything
receives the settings the votes ask for one after the other, without repetitions.
-/
namespace GestureActions

def Mask.holds (m : Mask) (i : Nat) : Bool := m.bits.toBitVec.getLsbD i

namespace Mask

@[simp] theorem holds_empty (i : Nat) : empty.holds i = false := by
  simp [holds, empty]

@[simp] theorem holds_union (m n : Mask) (i : Nat) :
    (m.union n).holds i = (m.holds i || n.holds i) := by
  simp [holds, union]

theorem eq_of_holds {m n : Mask} (h : ∀ i, m.holds i = n.holds i) : m = n := by
  obtain ⟨a⟩ := m
  obtain ⟨b⟩ := n
  have hab : a.toBitVec = b.toBitVec := BitVec.eq_of_getLsbD_eq fun i _ => h i
  rw [UInt32.toBitVec_inj.mp hab]

end Mask

namespace Setting

/-- A setting that asks for what the active ones of some clients' votes ask for together. -/
structure Unites (s : Setting) (latest : Client → Option Vote) : Prop where
  active : s.active = true ↔ ∃ c v, latest c = some v ∧ v.active = true
  holds : ∀ i, s.mask.holds i = true ↔
    ∃ c v, latest c = some v ∧ v.active = true ∧ v.mask.holds i = true

theorem Unites.unique {s t : Setting} {latest : Client → Option Vote} (hs : s.Unites latest)
    (ht : t.Unites latest) : s = t := by
  obtain ⟨a, m⟩ := s
  obtain ⟨b, n⟩ := t
  have hab : a = b := Bool.eq_iff_iff.mpr (hs.active.trans ht.active.symm)
  have hmn : m = n := Mask.eq_of_holds fun i =>
    Bool.eq_iff_iff.mpr ((hs.holds i).trans (ht.holds i).symm)
  rw [hab, hmn]

theorem Unites.idle {s : Setting} {latest : Client → Option Vote} (hs : s.Unites latest)
    (h : ∀ c v, latest c = some v → v.active = false) : s = .idle := by
  refine hs.unique ⟨?_, fun i => ?_⟩
  · constructor
    · intro hf
      exact absurd hf (by decide)
    · rintro ⟨c, v, hv, ha⟩
      exact absurd ha (by simp [h c v hv])
  · constructor
    · intro hf
      simp [Setting.idle] at hf
    · rintro ⟨c, v, hv, ha, _⟩
      exact absurd ha (by simp [h c v hv])

def join (s : Setting) (v : Vote) : Setting := ⟨true, s.mask.union v.mask⟩

theorem foldl_join (votes : List Vote) (s : Setting) :
    ((votes.foldl join s).active = true ↔ s.active = true ∨ votes ≠ []) ∧
    ∀ i, (votes.foldl join s).mask.holds i = true ↔
      s.mask.holds i = true ∨ ∃ v ∈ votes, v.mask.holds i = true := by
  induction votes generalizing s with
  | nil => simp
  | cons v r ih =>
    obtain ⟨ha, hm⟩ := ih (s.join v)
    refine ⟨?_, fun i => ?_⟩
    · rw [List.foldl_cons, ha]
      simp [join]
    · rw [List.foldl_cons, hm]
      simp [join, or_assoc]

theorem active_ofVotes (votes : List Vote) :
    (ofVotes votes).active = true ↔ ∃ v ∈ votes, v.active = true := by
  have h := (foldl_join (votes.filter (·.active)) .idle).1
  rw [show ofVotes votes = (votes.filter (·.active)).foldl join .idle from rfl, h]
  simp [Setting.idle]

theorem holds_ofVotes (votes : List Vote) (i : Nat) :
    (ofVotes votes).mask.holds i = true ↔ ∃ v ∈ votes, v.active = true ∧ v.mask.holds i = true := by
  have h := (foldl_join (votes.filter (·.active)) .idle).2 i
  rw [show ofVotes votes = (votes.filter (·.active)).foldl join .idle from rfl, h]
  simp [Setting.idle, and_assoc]

end Setting

namespace Poll

/-- A client's latest vote is the one stored with it, as no client is stored twice. -/
theorem mem_iff_latest {l : List (Client × Vote)} (hl : (l.map (·.1)).Nodup) {c : Client} {v : Vote} :
    (c, v) ∈ l ↔ latest l c = some v := by
  induction l with
  | nil => simp [latest]
  | cons x r ih =>
    obtain ⟨d, u⟩ := x
    obtain ⟨hd, hr⟩ := List.nodup_cons.mp hl
    by_cases hdc : d = c
    · subst hdc
      have hn : (d, v) ∉ r := fun hm => hd (List.mem_map.mpr ⟨_, hm, rfl⟩)
      simp [latest, hn, eq_comm]
    · simp [latest, hdc, ih hr, Ne.symm hdc]

theorem keys_place (c : Client) (v : Vote) (l : List (Client × Vote)) :
    (place c v l).map (·.1) = if c ∈ l.map (·.1) then l.map (·.1) else l.map (·.1) ++ [c] := by
  induction l with
  | nil => simp [place]
  | cons x r ih =>
    obtain ⟨d, u⟩ := x
    by_cases hd : d = c
    · simp [place, hd]
    · simp only [place, if_neg hd, List.map_cons, ih, List.mem_cons, Ne.symm hd, false_or]
      split <;> rfl

theorem nodup_place (c : Client) (v : Vote) {l : List (Client × Vote)} (hl : (l.map (·.1)).Nodup) :
    ((place c v l).map (·.1)).Nodup := by
  rw [keys_place]
  split
  · exact hl
  · rename_i hc
    exact List.nodup_append.mpr ⟨hl, List.nodup_singleton c, fun a ha b hb e =>
      hc (List.mem_singleton.mp hb ▸ e ▸ ha)⟩

theorem unites_tally {l : List (Client × Vote)} (hl : (l.map (·.1)).Nodup) :
    (tally l).Unites (latest l) := by
  have hex : ∀ P : Vote → Prop, (∃ v ∈ l.map (·.2), P v) ↔ ∃ c v, latest l c = some v ∧ P v := by
    intro P
    constructor
    · rintro ⟨v, hv, hp⟩
      obtain ⟨⟨c, u⟩, hu, rfl⟩ := List.mem_map.mp hv
      exact ⟨c, u, (mem_iff_latest hl).mp hu, hp⟩
    · rintro ⟨c, v, hv, hp⟩
      exact ⟨v, List.mem_map_of_mem ((mem_iff_latest hl).mpr hv), hp⟩
  exact ⟨(Setting.active_ofVotes _).trans (hex _), fun i => (Setting.holds_ofVotes _ i).trans (hex _)⟩

theorem tally_congr {l r : List (Client × Vote)} (hl : (l.map (·.1)).Nodup) (hr : (r.map (·.1)).Nodup)
    (h : ∀ c, latest l c = latest r c) : tally l = tally r := by
  have hu := unites_tally hl
  rw [funext h] at hu
  exact hu.unique (unites_tally hr)

theorem tally_perm {l r : List (Client × Vote)} (hp : l.Perm r) (hr : (r.map (·.1)).Nodup) :
    tally l = tally r := by
  have hl : (l.map (·.1)).Nodup := (hp.map _).nodup_iff.mpr hr
  refine tally_congr hl hr fun c => Option.ext fun v => ?_
  exact (mem_iff_latest hl).symm.trans (hp.mem_iff.trans (mem_iff_latest hr))

/-- A poll that holds one vote of each client and has handed on what they ask for. -/
structure Sound (p : Poll) : Prop where
  nodup : (p.votes.map (·.1)).Nodup
  published : p.published = tally p.votes

theorem sound_empty : empty.Sound := ⟨List.nodup_nil, rfl⟩

theorem votes_cast (p : Poll) (c : Client) (v : Vote) : (p.cast c v).1.votes = place c v p.votes := by
  unfold cast
  dsimp only
  split <;> rfl

theorem published_cast (p : Poll) (c : Client) (v : Vote) :
    (p.cast c v).1.published = tally (place c v p.votes) := by
  unfold cast
  dsimp only
  split
  · rename_i h; exact h.symm
  · rfl

theorem handed_cast (p : Poll) (c : Client) (v : Vote) :
    (p.cast c v).2 = if tally (place c v p.votes) = p.published then none
      else some (tally (place c v p.votes)) := by
  unfold cast
  dsimp only
  split <;> rfl

theorem Sound.cast {p : Poll} (hp : p.Sound) (c : Client) (v : Vote) : (p.cast c v).1.Sound := by
  refine ⟨?_, ?_⟩
  · rw [votes_cast]
    exact nodup_place c v hp.nodup
  · rw [published_cast, votes_cast]

end Poll

/-- What is asked of a poll: a client of its own, or a client's vote. All holders of
one client vote as that client. -/
inductive PollStep
  | enrol
  | vote (c : Client) (b : Ballot)
  deriving DecidableEq, Repr

namespace PollStep

def voter? : PollStep → Option Client
  | enrol => none
  | vote c _ => some c

/-- What a step puts on record for a client: the state and the mask that it names, the
gestures that it names, with the detector on if there are any, or nothing at all. -/
def voteOf? (c : Client) : PollStep → Option Vote
  | enrol => none
  | vote d (.state active mask) => if d = c then some ⟨active, mask⟩ else none
  | vote d (.gestures mask) => if d = c then some ⟨mask.bits != 0, mask⟩ else none
  | vote d .withdrawal => if d = c then some ⟨false, ⟨0⟩⟩ else none

/-- Each ballot is the vote that its step puts on record. -/
theorem voteOf?_vote (c d : Client) (b : Ballot) : voteOf? c (vote d b) = if d = c then some b.vote else none := by
  cases b <;> rfl

def latest (h : List PollStep) (c : Client) : Option Vote := (h.filterMap (voteOf? c)).getLast?

/-- What the latest votes of a history ask for together. -/
def asked (h : List PollStep) : Setting :=
  .ofVotes ((h.filterMap voter?).dedup.filterMap (latest h))

theorem latest_snoc (h : List PollStep) (x : PollStep) (c : Client) :
    latest (h ++ [x]) c = (x.voteOf? c).or (latest h c) := by
  unfold latest
  rw [List.filterMap_append, List.getLast?_append]
  cases hx : x.voteOf? c <;> simp [hx]

theorem mem_voters {h : List PollStep} {c : Client} {v : Vote} (hv : latest h c = some v) :
    c ∈ h.filterMap voter? := by
  obtain ⟨x, hx, hvx⟩ := List.mem_filterMap.mp (List.mem_of_getLast? hv)
  refine List.mem_filterMap.mpr ⟨x, hx, ?_⟩
  cases x with
  | enrol => simp [voteOf?] at hvx
  | vote d b =>
    by_cases hd : d = c
    · rw [hd]; rfl
    · simp [voteOf?_vote, hd] at hvx

theorem unites_asked (h : List PollStep) : (asked h).Unites (latest h) := by
  have hex : ∀ P : Vote → Prop, (∃ v ∈ (h.filterMap voter?).dedup.filterMap (latest h), P v) ↔
      ∃ c v, latest h c = some v ∧ P v := by
    intro P
    constructor
    · rintro ⟨v, hv, hp⟩
      obtain ⟨c, _, hc⟩ := List.mem_filterMap.mp hv
      exact ⟨c, v, hc, hp⟩
    · rintro ⟨c, v, hv, hp⟩
      exact ⟨v, List.mem_filterMap.mpr ⟨c, List.mem_dedup.mpr (mem_voters hv), hv⟩, hp⟩
  exact ⟨(Setting.active_ofVotes _).trans (hex _), fun i => (Setting.holds_ofVotes _ i).trans (hex _)⟩

end PollStep

namespace PolledDetector

def step (refuses : Bool) (p : PolledDetector) : PollStep → PolledDetector
  | .enrol => { p with poll := p.poll.enrol.2 }
  | .vote c b => (p.vote refuses c b.vote).1

def run (h : List PollStep) (p : PolledDetector) : PolledDetector := h.foldl (step false) p

theorem run_snoc (h : List PollStep) (x : PollStep) (p : PolledDetector) :
    run (h ++ [x]) p = (run h p).step false x := List.foldl_concat ..

theorem sound_step {p : PolledDetector} (hp : p.poll.Sound) (refuses : Bool) (x : PollStep) :
    (p.step refuses x).poll.Sound := by
  cases x with
  | enrol => exact ⟨hp.nodup, hp.published⟩
  | vote c b =>
    rw [step, poll_vote]
    exact hp.cast c b.vote

theorem vote?_step (p : PolledDetector) (refuses : Bool) (x : PollStep) (c : Client) :
    (p.step refuses x).poll.vote? c = (x.voteOf? c).or (p.poll.vote? c) := by
  cases x with
  | enrol => rfl
  | vote d b =>
    rw [step, poll_vote, Poll.vote?, Poll.votes_cast, Poll.latest_place]
    by_cases hd : d = c
    · simp [PollStep.voteOf?_vote, hd]
    · simp [PollStep.voteOf?_vote, hd, Ne.symm hd, Poll.vote?]

/-- Each client's vote is its last one, and what the votes ask for has been handed on. -/
theorem run_fresh (recording : Bool) (h : List PollStep) :
    (run h (fresh recording)).poll.Sound ∧
    ∀ c, (run h (fresh recording)).poll.vote? c = PollStep.latest h c := by
  induction h using List.reverseRecOn with
  | nil => exact ⟨Poll.sound_empty, fun c => rfl⟩
  | append_singleton h x ih =>
    obtain ⟨hs, hv⟩ := ih
    refine ⟨?_, fun c => ?_⟩
    · rw [run_snoc]
      exact sound_step hs false x
    · rw [run_snoc, vote?_step, hv, PollStep.latest_snoc]

theorem published_run (recording : Bool) (h : List PollStep) :
    (run h (fresh recording)).poll.published = PollStep.asked h := by
  obtain ⟨hs, hv⟩ := run_fresh recording h
  have hu := Poll.unites_tally hs.nodup
  rw [← hs.published, show Poll.latest _ = PollStep.latest h from funext hv] at hu
  exact hu.unique (PollStep.unites_asked h)

theorem detector_vote (c : Client) (v : Vote) (p : PolledDetector) :
    (p.vote false c v).1.detector = (p.poll.cast c v).2.elim p.detector (p.detector.take ·) := by
  unfold vote
  split
  · rename_i h; rw [h]; rfl
  · rename_i h; rw [h]; rfl

theorem taken_step {p : PolledDetector} (hr : p.detector.recording = true) (x : PollStep) :
    (p.step false x).detector.recording = true ∧
    (p.step false x).detector.taken = p.detector.taken ++
      (if p.poll.published = (p.step false x).poll.published then []
        else [(p.step false x).poll.published]) := by
  cases x with
  | enrol => exact ⟨hr, by simp [step, Poll.enrol]⟩
  | vote c b =>
    rw [step, detector_vote, poll_vote, Poll.published_cast, Poll.handed_cast]
    by_cases ht : Poll.tally (Poll.place c b.vote p.poll.votes) = p.poll.published
    · simp [ht, hr]
    · simp [ht, hr, Detector.take, Ne.symm ht]

theorem destutter'_head (a : Setting) (l : List Setting) :
    l.destutter' (· ≠ ·) a = a :: (l.destutter' (· ≠ ·) a).tail := by
  induction l with
  | nil => rfl
  | cons b r ih =>
    by_cases h : a ≠ b
    · rw [List.destutter'_cons_pos r h, List.tail_cons]
    · rw [List.destutter'_cons_neg r h]
      exact ih

/-- What the detector takes in the course of a run: each setting that differs from the
one before it. -/
theorem taken_run (h : List PollStep) {p : PolledDetector} (hr : p.detector.recording = true) :
    (run h p).detector.taken = p.detector.taken ++
      ((h.inits.map fun k => (run k p).poll.published).destutter (· ≠ ·)).tail := by
  induction h generalizing p with
  | nil => simp [run]
  | cons x r ih =>
    obtain ⟨hr', ht⟩ := taken_step hr x
    have hhead : ∃ l, (r.inits.map fun k => (run k (p.step false x)).poll.published) =
        (p.step false x).poll.published :: l := by
      cases r <;> exact ⟨_, rfl⟩
    obtain ⟨l, hl⟩ := hhead
    have hmap : ((x :: r).inits.map fun k => (run k p).poll.published) =
        p.poll.published :: (p.step false x).poll.published :: l := by
      rw [List.inits, List.map_cons, List.map_map, ← hl]
      rfl
    rw [show run (x :: r) p = run r (p.step false x) from rfl, ih hr', ht, hl, hmap,
      List.destutter_cons', List.destutter_cons']
    by_cases he : p.poll.published = (p.step false x).poll.published
    · rw [if_pos he, List.append_nil, List.destutter'_cons_neg l (not_not.mpr he), he]
    · rw [if_neg he, List.destutter'_cons_pos l he, List.tail_cons, destutter'_head _ l,
        List.append_assoc, List.singleton_append, List.tail_cons]

/-- After any history of votes, each client's vote is its last one and the poll asks for
what the active ones among them ask for together, in whatever order they are stored; and
the detector received what they asked for in turn, without repetitions and without the
idle setting it began with. -/
theorem run_unites_latest (h : List PollStep) :
    let p := run h (fresh true)
    (∀ c, p.poll.vote? c = PollStep.latest h c) ∧
    p.poll.published.Unites (PollStep.latest h) ∧
    ((∀ c v, PollStep.latest h c = some v → v.active = false) → p.poll.published = .idle) ∧
    (∀ l, l.Perm p.poll.votes → Poll.tally l = p.poll.published) ∧
    p.detector.taken =
      ((Setting.idle :: h.inits.tail.map PollStep.asked).destutter (· ≠ ·)).tail := by
  intro p
  obtain ⟨hs, hv⟩ := run_fresh true h
  have hu : p.poll.published.Unites (PollStep.latest h) := by
    rw [published_run]
    exact PollStep.unites_asked h
  refine ⟨hv, hu, hu.idle, fun l hl => ?_, ?_⟩
  · rw [Poll.tally_perm hl hs.nodup, ← hs.published]
  · have hi : h.inits.map (fun k => (run k (fresh true)).poll.published) =
        .idle :: h.inits.tail.map PollStep.asked := by
      rw [funext (published_run true)]
      cases h <;> rfl
    rw [taken_run h rfl, hi]
    rfl

end PolledDetector

end GestureActions
