import GestureActions.Proofs.System.Affairs
import GestureActions.System.Assembly

/-! # Adding to a world

A voter is added with a vote for nothing. Among votes for nothing that brings nothing
about, so that a world whose members have only been added can be written down.
-/
namespace GestureActions

open Request

namespace Poll

theorem tally_idle {l : List (Client × Vote)} (h : ∀ x ∈ l, x.2.active = false) : tally l = .idle := by
  have hf : (l.map (·.2)).filter (·.active) = [] := by
    refine List.filter_eq_nil_iff.mpr fun v hv => ?_
    obtain ⟨x, hx, rfl⟩ := List.mem_map.mp hv
    simp [h x hx]
  rw [tally, Setting.ofVotes, hf, List.foldl_nil]

theorem mem_place {c : Client} {v : Vote} {l : List (Client × Vote)} {x : Client × Vote}
    (h : x ∈ place c v l) : x = (c, v) ∨ x ∈ l := by
  induction l with
  | nil => exact Or.inl (List.mem_singleton.mp h)
  | cons y r ih =>
    obtain ⟨d, u⟩ := y
    unfold place at h
    split at h
    · rcases List.mem_cons.mp h with h | h
      · exact Or.inl h
      · exact Or.inr (List.mem_cons_of_mem _ h)
    · rcases List.mem_cons.mp h with h | h
      · exact Or.inr (h ▸ List.mem_cons_self)
      · exact (ih h).imp_right (List.mem_cons_of_mem _)

/-- A vote for nothing among votes for nothing brings nothing about. -/
theorem cast_idle {p : Poll} (c : Client) {v : Vote} (hv : v.active = false)
    (hl : ∀ x ∈ p.votes, x.2.active = false) (hp : p.published = .idle) :
    p.cast c v = ({ p with votes := place c v p.votes }, none) := by
  have ht : tally (place c v p.votes) = p.published := by
    rw [hp]
    refine tally_idle fun x hx => ?_
    rcases mem_place hx with rfl | hx
    · exact hv
    · exact hl x hx
  rw [cast]
  exact if_pos ht

end Poll

namespace World

theorem append_vote (o : Observer) (c : Client) (v : Vote) (w : World) :
    w.append o [.vote c v] =
      { w with observers := w.observers ++ [o], order := w.order ++ [w.observers.length] }.voted
        (.observer w.observers.length) c v := by
  rw [append, performAll, Outcome.each_singleton, perform_vote_never]
  rfl

theorem voted_idle (p : Party) (c : Client) {v : Vote} (hv : v.active = false) {w : World}
    (hl : ∀ x ∈ w.poll.votes, x.2.active = false) (hp : w.poll.published = .idle) :
    w.voted p c v = { w with poll := { w.poll with votes := Poll.place c v w.poll.votes } } := by
  rw [voted, Poll.cast_idle c hv hl hp]
  simp

theorem withdrawn_inactive (l : List Client) :
    ∀ x ∈ l.map fun c => (c, Vote.withdrawn), x.2.active = false := by
  intro x hx
  obtain ⟨c, _, rfl⟩ := List.mem_map.mp hx
  rfl

theorem voted_first (p : Party) (c : Client) {w : World} (hl : w.poll.votes = []) (hp : w.poll.published = .idle) :
    w.voted p c .withdrawn = { w with poll := { w.poll with votes := [(c, .withdrawn)] } } := by
  have hidle : ∀ x ∈ w.poll.votes, x.2.active = false := by
    rw [hl]
    exact fun x hx => absurd hx List.not_mem_nil
  rw [voted_idle p c rfl hidle hp, hl]
  rfl

theorem addCall_eq (t : Timings) (enabled : Bool) (w : World) :
    w.addCall t enabled =
      { w with poll := w.poll.enrol.2, call := some ⟨w.poll.enrol.1, .initial t.silenceDelay enabled⟩ }.voted
        .call w.poll.enrol.1 .withdrawn := by
  change (Outcome.each _ [_] _).state = _
  rw [Outcome.each_singleton, perform_vote_never]
  rfl

theorem addAlarm_eq (t : Timings) (enabled : Bool) (w : World) :
    w.addAlarm t enabled =
      { w with
        poll := w.poll.enrol.2
        alarm := some ⟨w.poll.enrol.1, AlarmSilencer.initial t.silenceDelay enabled⟩ }.voted
        .alarm w.poll.enrol.1 .withdrawn := by
  change (Outcome.each _ [_] _).state = _
  rw [Outcome.each_singleton, perform_vote_never]
  rfl

end World

end GestureActions
