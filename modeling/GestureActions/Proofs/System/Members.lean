import GestureActions.Service.HostEvent

/-! # What reaches the members of a world

Whatever happens to a world is one message told to some of its members, one after
another: a notice to all of them, a signal of the alarm or of the line to its silencer,
a reading to the listeners of its sensor. A member answers with a reaction, and what the
world does is to carry the reactions out. This holds with and without refused calls.
-/
namespace GestureActions

theorem getLastD_filterMap_snoc {α β : Type} (f : α → Option β) (h : List α) (x : α) (b : β) :
    ((h ++ [x]).filterMap f).getLastD b = (f x).getD ((h.filterMap f).getLastD b) := by
  rw [List.filterMap_append]
  cases hx : f x <;> simp [hx, List.getLastD_eq_getLast?]

namespace Outcome

variable {σ α β : Type}

theorem andThen_assoc (o : Outcome σ) (f g : σ → Outcome σ) :
    (o.andThen f).andThen g = o.andThen fun s => (f s).andThen g := by
  cases o <;> rfl

theorem andThen_done (o : Outcome σ) : o.andThen done = o := by
  cases o <;> rfl

theorem each_append (f : α → σ → Outcome σ) (l r : List α) (s : σ) :
    each f (l ++ r) s = (each f l s).andThen (each f r) := by
  induction l generalizing s with
  | nil => rfl
  | cons a l ih =>
    simp only [List.cons_append, each, andThen_assoc]
    cases f a s with
    | done t => exact ih t
    | refused c t => rfl

theorem each_map (f : β → σ → Outcome σ) (g : α → β) (l : List α) (s : σ) :
    each f (l.map g) s = each (fun a => f (g a)) l s := by
  induction l generalizing s with
  | nil => rfl
  | cons a l ih =>
    simp only [List.map_cons, each]
    cases f (g a) s with
    | done t => exact ih t
    | refused c t => rfl

theorem each_singleton (f : α → σ → Outcome σ) (a : α) (s : σ) : each f [a] s = f a s :=
  andThen_done _

end Outcome

/-- What can happen to a world from outside; a delivery is a reading given to one party
alone, whether it listens or not. -/
inductive Stimulus
  | event (e : HostEvent)
  | emission (r : Reading)
  | delivery (r : Reading) (p : Party)
  | clock (t : Instant)
  deriving DecidableEq, Repr

inductive Message
  | notice (n : Notice)
  | ringing (on : Bool)
  | line (c : CallState)
  | reading (r : Reading)
  deriving DecidableEq, Repr

/-- A party that has a state of its own. -/
inductive Member
  | observer (o : Observer)
  | alarm (c : Client) (s : Sentry DelayGuard)
  | call (c : Client) (s : CallSilencer)
  deriving DecidableEq, Repr

namespace Stimulus

def message? : Stimulus → Option Message
  | event .screenOn => some (.notice (.screen true))
  | event .screenOff => some (.notice (.screen false))
  | event (.alarm a) => (AlarmAction.ofAction? a).map fun a => .ringing a.isRinging
  | event (.callState c) => some (.line c)
  | event (.preference k v) => (Preference.ofKey? k).map fun p => .notice (.preference p v)
  | emission r => some (.reading r)
  | delivery r _ => some (.reading r)
  | clock _ => none

variable {x : Stimulus}

theorem eq_of_reading {r : Reading} (h : x.message? = some (.reading r)) : x = emission r ∨ ∃ p, x = delivery r p := by
  cases x with
  | event e =>
    cases e with
    | alarm a =>
      obtain ⟨b, _, hb⟩ := Option.map_eq_some_iff.mp h
      cases hb
    | preference k v =>
      obtain ⟨q, _, hq⟩ := Option.map_eq_some_iff.mp h
      cases hq
    | _ => cases h
  | emission r' => cases h; exact Or.inl rfl
  | delivery r' p => cases h; exact Or.inr ⟨p, rfl⟩
  | clock t => cases h

theorem eq_of_notice {n : Notice} (h : x.message? = some (.notice n)) :
    (∃ on, n = .screen on ∧ x = event (if on then .screenOn else .screenOff)) ∨
    ∃ q v, n = .preference q v ∧ x = event (.preference q.key v) := by
  cases x with
  | event e =>
    cases e with
    | screenOn => cases h; exact Or.inl ⟨true, rfl, rfl⟩
    | screenOff => cases h; exact Or.inl ⟨false, rfl, rfl⟩
    | alarm a =>
      obtain ⟨b, _, hb⟩ := Option.map_eq_some_iff.mp h
      cases hb
    | callState l => cases h
    | preference k v =>
      obtain ⟨q, hq, hn⟩ := Option.map_eq_some_iff.mp h
      cases hn
      rw [Preference.ofKey?_eq_some.mp hq]
      exact Or.inr ⟨q, v, rfl, rfl⟩
  | _ => cases h

end Stimulus

/-- A member's answer to a message; some messages mean nothing to it. -/
def Member.react (now : Instant) (m : Message) : Member → Reaction Effect Member
  | observer o =>
    match m with
    | .notice n => (o.notice now n).map observer
    | .reading r => (o.hear now r).map observer
    | _ => .still (observer o)
  | alarm c s =>
    match m with
    | .notice (.preference p v) => (s.prefer (AlarmSilencer.routine c) now p v).map (alarm c)
    | .ringing on => (s.signal (AlarmSilencer.routine c) now on).map (alarm c)
    | .reading r => (s.hear (AlarmSilencer.routine c) now r).map (alarm c)
    | _ => .still (alarm c s)
  | call c s =>
    match m with
    | .notice (.preference p v) => (s.prefer c now p v).map (call c)
    | .line l => (s.callState c now l).map (call c)
    | .reading r => (s.hear now r).map (call c)
    | _ => .still (call c s)

/-- Something of a member that its state has no part in. -/
structure Member.Fixed {α : Type} (f : Member → α) : Prop where
  pickup : ∀ sink s s', f (.observer (.pickup sink s)) = f (.observer (.pickup sink s'))
  unstow : ∀ sink s s', f (.observer (.unstow sink s)) = f (.observer (.unstow sink s'))
  approach : ∀ c sink s s', f (.observer (.approach c sink s)) = f (.observer (.approach c sink s'))
  attentive : ∀ c mode window s s',
    f (.observer (.attentive c mode window s)) = f (.observer (.attentive c mode window s'))
  alarm : ∀ c s s', f (.alarm c s) = f (.alarm c s')
  call : ∀ c s s', f (.call c s) = f (.call c s')

theorem Member.Fixed.react {α : Type} {f : Member → α} (h : Fixed f) (now : Instant) (m : Message) (k : Member) :
    f (k.react now m).next = f k := by
  cases k with
  | observer o =>
    cases o with
    | doze => cases m <;> rfl
    | flashlight sink =>
      cases m with
      | notice n => cases n <;> rfl
      | reading r =>
        simp only [Member.react, Observer.hear]
        split <;> rfl
      | _ => rfl
    | pickup sink s => cases m <;> first | rfl | exact h.pickup sink _ s
    | unstow sink s => cases m <;> first | rfl | exact h.unstow sink _ s
    | approach c sink s => cases m <;> first | rfl | exact h.approach c sink _ s
    | attentive c mode window s => cases m <;> first | rfl | exact h.attentive c mode window _ s
    | recorder name => cases m <;> rfl
  | alarm c s =>
    cases m with
    | notice n => cases n <;> first | rfl | exact h.alarm c _ s
    | line l => rfl
    | _ => exact h.alarm c _ s
  | call c s =>
    cases m with
    | notice n => cases n <;> first | rfl | exact h.call c _ s
    | ringing on => rfl
    | _ => exact h.call c _ s

namespace World

def meet (refuses : Refusals) (x : Stimulus) (w : World) : Outcome World :=
  match x with
  | .event e => w.receive refuses e
  | .emission r => w.emit refuses r
  | .delivery r p => w.deliver refuses r p
  | .clock t => .done { w with clock := w.clock.set t }

def run (refuses : Refusals) : List Stimulus → World → Outcome World := Outcome.each (meet refuses)

def member? (w : World) : Party → Option Member
  | .observer i => w.observers[i]?.map .observer
  | .alarm => w.alarm.map fun v => .alarm v.client v.silencer
  | .call => w.call.map fun v => .call v.client v.silencer
  | .doze | .flashlight => none

def seat (p : Party) (k : Member) (w : World) : World :=
  match p, k with
  | .observer i, .observer o => w.putObserver i o
  | .alarm, .alarm c s => w.putAlarm c s
  | .call, .call c s => w.putCall c s
  | _, _ => w

def tell (refuses : Refusals) (m : Message) (p : Party) (w : World) : Outcome World :=
  match w.member? p with
  | none => .done w
  | some k => carryOut refuses p (seat p) (effect refuses p) (k.react w.now m) w

/-- What a stimulus changes before anyone is told of it. -/
def prepare (w : World) : Stimulus → World
  | .event .screenOn => { w with screen := some true }
  | .event .screenOff => { w with screen := some false }
  | .clock t => { w with clock := w.clock.set t }
  | _ => w

def audience (w : World) : Stimulus → List Party
  | .event .screenOn | .event .screenOff => w.order.map .observer
  | .event (.alarm _) => [.alarm]
  | .event (.callState _) => [.call]
  | .event (.preference _ _) => w.order.map .observer ++ [.alarm, .call]
  | .emission r => w.hearers r
  | .delivery _ p => [p]
  | .clock _ => []

theorem atObserver_eq_tell (refuses : Refusals) (m : Message) {i : Nat} {w : World}
    {react : Observer → Reaction Effect Observer}
    (h : ∀ o, Member.react w.now m (.observer o) = (react o).map .observer) :
    w.atObserver refuses i react = w.tell refuses m (.observer i) := by
  simp only [atObserver, tell, member?]
  cases w.observers[i]? with
  | none => rfl
  | some o => simp only [Option.map_some, h]; rfl

theorem atAlarm_eq_tell (refuses : Refusals) (m : Message) {w : World}
    {react : Client → Sentry DelayGuard → Reaction Effect (Sentry DelayGuard)}
    (h : ∀ c s, Member.react w.now m (.alarm c s) = (react c s).map (.alarm c)) :
    w.atAlarm refuses react = w.tell refuses m .alarm := by
  simp only [atAlarm, tell, member?]
  cases w.alarm with
  | none => rfl
  | some v => simp only [Option.map_some, h]; rfl

theorem atCall_eq_tell (refuses : Refusals) (m : Message) {w : World}
    {react : Client → CallSilencer → Reaction Effect CallSilencer}
    (h : ∀ c s, Member.react w.now m (.call c s) = (react c s).map (.call c)) :
    w.atCall refuses react = w.tell refuses m .call := by
  simp only [atCall, tell, member?]
  cases w.call with
  | none => rfl
  | some v => simp only [Option.map_some, h]; rfl

theorem deliver_eq_tell (refuses : Refusals) (r : Reading) (p : Party) (w : World) :
    w.deliver refuses r p = w.tell refuses (.reading r) p := by
  cases p with
  | observer i => exact atObserver_eq_tell refuses (.reading r) fun _ => rfl
  | alarm => exact atAlarm_eq_tell refuses (.reading r) fun _ _ => rfl
  | call => exact atCall_eq_tell refuses (.reading r) fun _ _ => rfl
  | doze => rfl
  | flashlight => rfl

theorem toObservers_eq_each_tell (refuses : Refusals) (n : Notice) (w : World) :
    w.toObservers refuses n = Outcome.each (tell refuses (.notice n)) (w.order.map .observer) w := by
  rw [Outcome.each_map]
  unfold toObservers
  congr 1
  funext i v
  exact atObserver_eq_tell refuses (.notice n) fun _ => rfl

theorem preferenceChanged_eq_each_tell (refuses : Refusals) (q : Preference) (v : Bool) (w : World) :
    w.preferenceChanged refuses q v =
      Outcome.each (tell refuses (.notice (.preference q v)))
        (w.order.map .observer ++ [.alarm, .call]) w := by
  unfold preferenceChanged
  rw [toObservers_eq_each_tell, Outcome.each_append]
  congr 1
  funext u
  rw [Outcome.each, atAlarm_eq_tell refuses (.notice (.preference q v)) fun _ _ => rfl]
  congr 1
  funext u
  rw [atCall_eq_tell refuses (.notice (.preference q v)) fun _ _ => rfl, Outcome.each_singleton]

/-- A stimulus is a message told to its audience in turn. -/
theorem meet_eq (refuses : Refusals) (x : Stimulus) (w : World) :
    w.meet refuses x =
      match x.message? with
      | none => .done (w.prepare x)
      | some m => Outcome.each (tell refuses m) (w.audience x) (w.prepare x) := by
  cases x with
  | event e =>
    cases e with
    | screenOn => exact toObservers_eq_each_tell refuses _ _
    | screenOff => exact toObservers_eq_each_tell refuses _ _
    | alarm a =>
      simp only [meet, receive, alarmBroadcast, Stimulus.message?]
      cases AlarmAction.ofAction? a with
      | none => rfl
      | some a => exact (atAlarm_eq_tell refuses (.ringing a.isRinging) fun _ _ => rfl).trans (Outcome.each_singleton ..).symm
    | callState c => exact (atCall_eq_tell refuses (.line c) fun _ _ => rfl).trans (Outcome.each_singleton ..).symm
    | preference k v =>
      simp only [meet, receive, keyChanged, Stimulus.message?]
      cases Preference.ofKey? k with
      | none => rfl
      | some q => exact preferenceChanged_eq_each_tell refuses q v w
  | emission r =>
    change Outcome.each (deliver refuses r) (w.hearers r) w = Outcome.each _ _ _
    congr 1
    funext p v
    exact deliver_eq_tell refuses r p v
  | delivery r p => exact (deliver_eq_tell refuses r p w).trans (Outcome.each_singleton ..).symm
  | clock t => rfl

theorem run_snoc {refuses : Refusals} {l : List Stimulus} {x : Stimulus} {w u v : World}
    (hu : w.run refuses l = .done u) (hv : u.meet refuses x = .done v) : w.run refuses (l ++ [x]) = .done v := by
  rw [run, Outcome.each_append, ← run, hu]
  exact (Outcome.each_singleton ..).trans hv

end World

end GestureActions
