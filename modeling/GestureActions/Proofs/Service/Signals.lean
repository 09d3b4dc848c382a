import GestureActions.Proofs.System.Members

/-! # What the host said last

The host's latest word on the screen, the alarm, the line and each switch, and what they
ask of the detector together. A stimulus counts by the message it brings.
-/
namespace GestureActions

namespace Stimulus

def screen? : Stimulus → Option Bool
  | event .screenOn => some true
  | event .screenOff => some false
  | _ => none

/-- Whether a broadcast of the desk clock starts an alarm or ends one. -/
def ringing? : Stimulus → Option Bool
  | event (.alarm a) => (AlarmAction.ofAction? a).map (·.isRinging)
  | _ => none

def line? : Stimulus → Option CallState
  | event (.callState c) => some c
  | _ => none

def switch? (q : Preference) : Stimulus → Option Bool
  | event (.preference k v) => if k = q.key then some v else none
  | _ => none

end Stimulus

/-- The host's latest signals; the screen is unknown until it is first heard of. -/
structure Signals where
  screen : Option Bool
  alarm : Bool
  line : CallState
  switches : Preference → Bool

namespace Signals

/-- The signals after a history: each the last one in it, or else the one before it. -/
def after (g : Signals) (h : List Stimulus) : Signals where
  screen := (h.filterMap Stimulus.screen?).getLast?.or g.screen
  alarm := (h.filterMap Stimulus.ringing?).getLastD g.alarm
  line := (h.filterMap Stimulus.line?).getLastD g.line
  switches q := (h.filterMap (Stimulus.switch? q)).getLastD (g.switches q)

/-- A hand is waited for over the dark screen. -/
def hand (g : Signals) : Bool := g.screen = some false && g.switches .approach

/-- The device is lifted from the dark. -/
def lift (g : Signals) : Bool := g.screen = some false && g.switches .pickUp

/-- Someone may be in front of the lit screen. -/
def presence (g : Signals) : Bool := g.screen = some true && g.switches .attentive

/-- An alarm can be snoozed. -/
def snooze (g : Signals) : Bool := g.alarm && g.switches .silence

/-- A ring can be silenced. -/
def hush (g : Signals) : Bool := g.line = .ringing && g.switches .silence

/-- What the signals ask of the detector. -/
def setting (mode : AttentiveMode) (g : Signals) : Setting where
  active := g.hand || g.presence || g.snooze || g.hush
  mask := .ofList <|
    (if g.hand then [.approach] else []) ++
    (if g.presence && mode = .stateMerge then [.objectDetected, .objectNotDetected] else []) ++
    (if g.snooze || g.hush then [.swipe] else [])

def heard (g : Signals) : Message → Signals
  | .notice (.screen on) => { g with screen := some on }
  | .notice (.preference q v) => { g with switches := fun p => if p = q then v else g.switches p }
  | .ringing on => { g with alarm := on }
  | .line c => { g with line := c }
  | .reading _ => g

theorem switch?_preference (k : String) (v : Bool) (q : Preference) :
    Stimulus.switch? q (.event (.preference k v)) = if Preference.ofKey? k = some q then some v else none := by
  simp only [Stimulus.switch?, Preference.ofKey?_eq_some]

theorem after_snoc (g : Signals) (h : List Stimulus) (x : Stimulus) :
    g.after (h ++ [x]) = x.message?.elim (g.after h) (g.after h).heard := by
  have hscreen : (g.after (h ++ [x])).screen = x.screen?.or (g.after h).screen := by
    simp only [after, List.filterMap_append, List.getLast?_append]
    cases hx : x.screen? <;> simp [hx]
  have halarm : (g.after (h ++ [x])).alarm = x.ringing?.getD (g.after h).alarm :=
    getLastD_filterMap_snoc ..
  have hline : (g.after (h ++ [x])).line = x.line?.getD (g.after h).line := getLastD_filterMap_snoc ..
  have hswitch : (g.after (h ++ [x])).switches = fun q => (x.switch? q).getD ((g.after h).switches q) :=
    funext fun q => getLastD_filterMap_snoc ..
  generalize g.after (h ++ [x]) = u at *
  generalize g.after h = v at *
  obtain ⟨s, a, l, p⟩ := u
  dsimp only at hscreen halarm hline hswitch
  subst hscreen halarm hline hswitch
  cases x with
  | event e =>
    cases e with
    | screenOn => rfl
    | screenOff => rfl
    | alarm a =>
      simp only [Stimulus.message?, Stimulus.ringing?]
      cases AlarmAction.ofAction? a <;> rfl
    | callState c => rfl
    | preference k b =>
      simp only [switch?_preference, Stimulus.message?]
      cases hk : Preference.ofKey? k with
      | none => rfl
      | some r =>
        simp only [Option.map_some, Option.elim_some, heard, Option.some.injEq]
        congr 1
        funext q
        by_cases hq : q = r
        · simp [hq]
        · simp [hq, Ne.symm hq]
  | _ => rfl

end Signals

end GestureActions
