import GestureActions.Proofs.System.Members

/-! # Roles

A role is a member without its state. No answer changes it, whether the member becomes
what the answer makes of it or is lost.
-/
namespace GestureActions

inductive Role
  | doze
  | flashlight (sink : Sink)
  | pickup (sink : Sink)
  | unstow (sink : Sink)
  | approach (client : Client) (sink : Sink)
  | attentive (client : Client) (mode : AttentiveMode) (window : Span)
  | recorder (name : String)
  | alarm (client : Client)
  | call (client : Client)
  deriving DecidableEq, Repr

namespace Member

def role : Member → Role
  | observer .doze => .doze
  | observer (.flashlight sink) => .flashlight sink
  | observer (.pickup sink _) => .pickup sink
  | observer (.unstow sink _) => .unstow sink
  | observer (.approach c sink _) => .approach c sink
  | observer (.attentive c mode window _) => .attentive c mode window
  | observer (.recorder name) => .recorder name
  | alarm c _ => .alarm c
  | call c _ => .call c

theorem fixed_role : Fixed role :=
  ⟨fun _ _ _ => rfl, fun _ _ _ => rfl, fun _ _ _ _ => rfl, fun _ _ _ _ _ => rfl, fun _ _ _ => rfl, fun _ _ _ => rfl⟩

/-- What the state has no part in is read off the role. -/
theorem Fixed.congr {α : Type} {f : Member → α} (h : Fixed f) {k l : Member} (hr : k.role = l.role) : f k = f l := by
  cases k with
  | observer o =>
    cases l with
    | observer o' =>
      cases o <;> cases o' <;> cases hr
      · rfl
      · rfl
      · exact h.pickup ..
      · exact h.unstow ..
      · exact h.approach ..
      · exact h.attentive ..
      · rfl
    | _ => cases o <;> cases hr
  | alarm c s =>
    cases l with
    | observer o => cases o <;> cases hr
    | alarm d t => cases hr; exact h.alarm c s t
    | call d t => cases hr
  | call c s =>
    cases l with
    | observer o => cases o <;> cases hr
    | alarm d t => cases hr
    | call d t => cases hr; exact h.call c s t

theorem eq_observer_of_role {k : Member} {o : Observer} (h : k.role = (observer o).role) : ∃ o', k = observer o' := by
  cases k with
  | observer o' => exact ⟨o', rfl⟩
  | _ => cases o <;> cases h

theorem eq_alarm_of_role {k : Member} {c : Client} {s : Sentry DelayGuard} (h : k.role = (alarm c s).role) :
    ∃ s', k = alarm c s' := by
  cases k with
  | observer o => cases o <;> cases h
  | alarm d t => cases h; exact ⟨t, rfl⟩
  | call d t => cases h

theorem eq_call_of_role {k : Member} {c : Client} {s : CallSilencer} (h : k.role = (call c s).role) :
    ∃ s', k = call c s' := by
  cases k with
  | observer o => cases o <;> cases h
  | alarm d t => cases h
  | call d t => cases h; exact ⟨t, rfl⟩

theorem role_react (now : Instant) (m : Message) (k : Member) : (k.react now m).next.role = k.role :=
  fixed_role.react now m k

theorem role_lost (now : Instant) (m : Message) (k : Member) : (k.react now m).lost.role = k.role := by
  cases k with
  | observer o =>
    cases o with
    | flashlight sink =>
      cases m with
      | notice n => cases n <;> rfl
      | reading r =>
        simp only [react, Observer.hear]
        split <;> rfl
      | _ => rfl
    | _ => cases m <;> rfl
  | alarm c s =>
    cases m with
    | notice n => cases n <;> rfl
    | _ => rfl
  | call c s =>
    cases m with
    | notice n => cases n <;> rfl
    | _ => rfl

end Member

end GestureActions
