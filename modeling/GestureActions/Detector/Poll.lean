import GestureActions.Detector.Mask

/-!
# The detector's poll

Several clients want the one detector, each with its own gestures. Every client
holds one vote, its latest; the poll folds the active votes into one setting and
hands it on only when it differs from the one handed on last.
-/
namespace GestureActions

structure Setting where
  active : Bool
  mask : Mask
  deriving DecidableEq, Repr

def Setting.idle : Setting := ⟨false, .empty⟩

structure Client where
  number : Nat
  deriving DecidableEq, Repr

def Client.text (c : Client) : String := "client-" ++ toString c.number

structure Vote where
  active : Bool
  mask : Mask
  deriving DecidableEq, Repr

namespace Vote

/-- The vote of a client that wants nothing. -/
def withdrawn : Vote := ⟨false, .empty⟩

/-- A vote for gestures alone is active unless there are none. -/
def forGestures (m : Mask) : Vote := ⟨!m.isEmpty, m⟩

end Vote

/-- The ways in which a client hands in a vote. -/
inductive Ballot
  | state (active : Bool) (mask : Mask)
  | gestures (mask : Mask)
  | withdrawal
  deriving DecidableEq, Repr

def Ballot.vote : Ballot → Vote
  | state active mask => ⟨active, mask⟩
  | gestures mask => .forGestures mask
  | withdrawal => .withdrawn

/-- The active votes together; an inactive vote adds nothing. -/
def Setting.ofVotes (votes : List Vote) : Setting :=
  (votes.filter (·.active)).foldl (fun s v => ⟨true, s.mask.union v.mask⟩) .idle

/-- The clients' latest votes, the setting handed on last, and the next free client number. -/
structure Poll where
  votes : List (Client × Vote)
  published : Setting
  free : Nat
  deriving DecidableEq, Repr

namespace Poll

def empty : Poll := ⟨[], .idle, 1⟩

/-- A client of its own, and the poll in which it is taken. -/
def enrol (p : Poll) : Client × Poll := (⟨p.free⟩, { p with free := p.free + 1 })

def latest : List (Client × Vote) → Client → Option Vote
  | [], _ => none
  | (d, v) :: r, c => if d = c then some v else latest r c

def vote? (p : Poll) (c : Client) : Option Vote := latest p.votes c

def current (p : Poll) (c : Client) : Vote := (p.vote? c).getD .withdrawn

def place (c : Client) (v : Vote) : List (Client × Vote) → List (Client × Vote)
  | [] => [(c, v)]
  | (d, u) :: r => if d = c then (c, v) :: r else (d, u) :: place c v r

def tally (votes : List (Client × Vote)) : Setting := .ofVotes (votes.map (·.2))

/-- A vote, and the setting to hand on if it changed. -/
def cast (p : Poll) (c : Client) (v : Vote) : Poll × Option Setting :=
  let votes := place c v p.votes
  let next := tally votes
  if next = p.published then ({ p with votes := votes }, none)
  else ({ p with votes := votes, published := next }, some next)

def describe (p : Poll) (c : Client) : String :=
  let v := p.current c
  "VoteHandle \x7b client: ClientId(" ++ toString c.number ++ "), vote: Vote \x7b active: "
    ++ toString v.active ++ ", mask: CapabilityMask(" ++ toString v.mask.bits.toNat ++ ") \x7d \x7d"

theorem latest_place (c d : Client) (v : Vote) (l : List (Client × Vote)) :
    latest (place c v l) d = if d = c then some v else latest l d := by
  induction l with
  | nil => by_cases h : c = d <;> simp [place, latest, h, eq_comm]
  | cons x r ih =>
    obtain ⟨e, u⟩ := x
    by_cases he : e = c
    · by_cases h : d = c <;> simp_all [place, latest, eq_comm]
    · by_cases h : e = d
      · subst h; simp [place, latest, he]
      · simp [place, latest, he, h, ih]

end Poll

end GestureActions
