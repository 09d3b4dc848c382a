import GestureActions.Detector.Poll

/-!
# The detector behind the poll

A detector takes the settings it is handed, unless it refuses one. A vote counts all
the same, and a refused setting is not handed on again before the votes ask for
another one. What the detector does is read off the settings it took.
-/
namespace GestureActions

/-- Whether a detector records what it takes, and what it took, oldest first. -/
structure Detector where
  recording : Bool
  taken : List Setting
  deriving DecidableEq, Repr

namespace Detector

def fresh (recording : Bool) : Detector := ⟨recording, []⟩

def take (s : Setting) (d : Detector) : Detector :=
  if d.recording then { d with taken := d.taken ++ [s] } else d

def current (d : Detector) : Setting := d.taken.getLastD .idle

def forget (d : Detector) : Detector := { d with taken := [] }

theorem current_take {d : Detector} (h : d.recording = true) (s : Setting) : (d.take s).current = s := by
  simp [take, current, h]

end Detector

/-- What comes of a vote: nothing new, or a setting that the detector takes or refuses. -/
inductive Handover
  | unchanged
  | taken (s : Setting)
  | refused (s : Setting)
  deriving DecidableEq, Repr

structure PolledDetector where
  poll : Poll
  detector : Detector
  deriving DecidableEq, Repr

namespace PolledDetector

def fresh (recording : Bool) : PolledDetector := ⟨.empty, .fresh recording⟩

def vote (refuses : Bool) (c : Client) (v : Vote) (p : PolledDetector) : PolledDetector × Handover :=
  match p.poll.cast c v with
  | (poll, none) => ({ p with poll := poll }, .unchanged)
  | (poll, some s) =>
    if refuses then ({ p with poll := poll }, .refused s)
    else (⟨poll, p.detector.take s⟩, .taken s)

theorem poll_vote (refuses : Bool) (c : Client) (v : Vote) (p : PolledDetector) :
    (p.vote refuses c v).1.poll = (p.poll.cast c v).1 := by
  unfold vote
  split
  · rename_i h; rw [h]
  · rename_i h; split <;> rw [h]

end PolledDetector

end GestureActions
