import GestureActions.Proofs.Faults.Trials
import GestureActions.System.Assembly

/-! # Worlds that are put together

A world is put together from parts, each with its own timings. However that is done, every
member starts in service: it is not armed, and it holds and votes for nothing, except that a
chop-chop listener is registered for good.
-/
namespace GestureActions

open Request

/-- What a world is put together from. -/
inductive Part
  | observer (b : Blueprint)
  | alarm (enabled : Bool)
  | call (enabled : Bool)
  deriving DecidableEq, Repr

namespace World

def addPart (w : World) (x : Timings × Part) : World :=
  match x.2 with
  | .observer b => w.add x.1 b
  | .alarm enabled => w.addAlarm x.1 enabled
  | .call enabled => w.addCall x.1 enabled

def assembled (start : Instant) (dozeInterval vibration : Span) (flashlight : Bool) (parts : List (Timings × Part)) :
    World :=
  parts.foldl addPart (initial start dozeInterval vibration flashlight)

end World

/-- A member that starts in service if it asks some requests first. -/
structure Member.Starts (k : Member) (qs : List Request) : Prop where
  fit : k.Fit
  asked : ∀ h : Holding, alternation? false (h.asked qs) = some (k.holds h)
  votes : votes qs = (k.stake.map fun b => (b.client, b.vote k.isArmed)).toList
  follows : ∃ g, k.Follows g ∧ g.present k.role = false

namespace Member.Starts

theorem asks_votes {k : Member} {qs : List Request} (h : k.Starts qs) : ∀ u ∈ Request.votes qs, k.client? = some u.1 := by
  intro u hu
  rw [h.votes, Option.mem_toList] at hu
  obtain ⟨b, hb, rfl⟩ := Option.map_eq_some_iff.mp hu
  rw [client?, hb, Option.map_some]

theorem foldl_votes {k : Member} {qs : List Request} (h : k.Starts qs) (v : Option Vote) (hv : k.stake = none → v = none) :
    (Request.votes qs).foldl (fun _ u => some u.2) v = k.stake.map (·.vote k.isArmed) := by
  rw [h.votes]
  cases hk : k.stake with
  | none => exact hv hk
  | some b => rfl

theorem sound {k : Member} {qs : List Request} (h : k.Starts qs) :
    Standing.Sound false ⟨k, fun t => qs.foldl (Request.hears t) false, k.stake.map (·.vote k.isArmed),
      qs.filterMap Request.call?⟩ := by
  obtain ⟨g, hg, hpresent⟩ := h.follows
  refine ⟨⟨h.fit, h.asked, fun t => ?_⟩, g, ⟨hg, rfl⟩, hpresent⟩
  change qs.foldl (Request.hears t) false = k.holds (.sensor t)
  rw [Holding.foldl_hears]
  exact getLastD_of_alternation? (h.asked (.sensor t))

end Member.Starts

namespace Member

/-- The signals that a member knows of at first, none of which is there. -/
def unheard (enabled : Bool) : Signals := ⟨none, false, .idle, fun _ => enabled⟩

theorem starts_doze : (observer .doze).Starts [] where
  fit := trivial
  asked _ := rfl
  votes := rfl
  follows := ⟨unheard false, trivial, rfl⟩

theorem starts_flashlight (sink : Sink) : (observer (.flashlight sink)).Starts [.register .chopChop] where
  fit := trivial
  asked := Holding.each rfl rfl rfl rfl rfl
  votes := rfl
  follows := ⟨unheard false, trivial, rfl⟩

theorem starts_recorder (name : String) : (observer (.recorder name)).Starts [] where
  fit := trivial
  asked _ := rfl
  votes := rfl
  follows := ⟨unheard false, trivial, rfl⟩

theorem starts_pickup (sink : Sink) (enabled : Bool) : (observer (.pickup sink (.initial .initial enabled))).Starts [] where
  fit := trivial
  asked _ := rfl
  votes := rfl
  follows := ⟨unheard enabled, Sentry.heeds_initial _ _, rfl⟩

theorem starts_unstow (sink : Sink) (enabled : Bool) : (observer (.unstow sink (.initial .initial enabled))).Starts [] where
  fit := trivial
  asked _ := rfl
  votes := rfl
  follows := ⟨unheard enabled, Sentry.heeds_initial _ _, rfl⟩

theorem starts_approach (c : Client) (sink : Sink) (enabled : Bool) :
    (observer (.approach c sink (.initial () enabled))).Starts [.vote c .withdrawn] where
  fit := trivial
  asked := Holding.each rfl rfl rfl rfl rfl
  votes := rfl
  follows := ⟨unheard enabled, Sentry.heeds_initial _ _, rfl⟩

theorem starts_attentive (c : Client) (mode : AttentiveMode) (t : Timings) (enabled : Bool) :
    (observer (.attentive c mode t.stowWindow (.initial (.initial mode t) enabled))).Starts [.vote c .withdrawn] where
  fit := by
    rintro d ⟨⟩
    exact ⟨rfl, fun _ => rfl⟩
  asked := Holding.each rfl rfl rfl rfl rfl
  votes := rfl
  follows := ⟨unheard enabled, Sentry.heeds_initial _ _, rfl⟩

theorem starts_alarm (c : Client) (delay : Span) (enabled : Bool) :
    (alarm c (AlarmSilencer.initial delay enabled)).Starts [.vote c (.forGestures .empty)] where
  fit := trivial
  asked := Holding.each rfl rfl rfl rfl rfl
  votes := rfl
  follows := ⟨unheard enabled, Sentry.heeds_initial _ _, rfl⟩

theorem starts_call (c : Client) (delay : Span) (enabled : Bool) :
    (call c (CallSilencer.initial delay enabled)).Starts [.vote c (.forGestures .empty)] where
  fit := trivial
  asked := Holding.each rfl rfl rfl rfl rfl
  votes := rfl
  follows := ⟨unheard enabled, ⟨rfl, _, rfl, rfl, rfl⟩, rfl⟩

end Member

namespace World

variable {w : World}

/-- A world in which no member has been told anything yet. -/
structure Fresh (w : World) : Prop where
  weathers : w.Weathers []
  clients : ∀ p c, w.clientOf p = some c → c.number < w.poll.free
  idle : ∀ p, p.IsMember → w.member? p = none ∨ p = .alarm ∨ p = .call → w.callsOf p = [] ∧ ∀ t, w.hears p t = false

theorem fresh_initial (start : Instant) (dozeInterval vibration : Span) (flashlight : Bool) :
    (initial start dozeInterval vibration flashlight).Fresh := by
  have hnone : ∀ p, (initial start dozeInterval vibration flashlight).member? p = none := by
    intro p
    cases p <;> rfl
  have hstanding : ∀ p, (initial start dozeInterval vibration flashlight).standing p = none := by
    intro p
    rw [standing, hnone]
    rfl
  refine ⟨⟨fun p q c hp => ?_, fun p s hs => ?_⟩, fun p c hp => ?_, fun p _ _ => ⟨rfl, fun t => rfl⟩⟩
  · rw [clientOf, hstanding] at hp
    cases hp
  · rw [hstanding] at hs
    cases hs
  · rw [clientOf, hstanding] at hp
    cases hp

theorem Fresh.enrol (h : w.Fresh) : ({ w with poll := w.poll.enrol.2 } : World).Fresh where
  weathers := ⟨h.weathers.apart, h.weathers.standing⟩
  clients p c hp := Nat.lt_succ_of_lt (h.clients p c hp)
  idle := h.idle

theorem Fresh.reorder (h : w.Fresh) (order : List Nat) : ({ w with order := order } : World).Fresh where
  weathers := ⟨h.weathers.apart, h.weathers.standing⟩
  clients := h.clients
  idle := h.idle

theorem free_perform (refuses : Refusals) (p : Party) (q : Request) (w : World) :
    (w.perform refuses p q).state.poll.free = w.poll.free := by
  have hcast : ∀ c v, (w.poll.cast c v).1.free = w.poll.free := by
    intro c v
    unfold Poll.cast
    dsimp only
    split <;> rfl
  rcases perform_cases refuses p q w with h | ⟨d, h⟩ | ⟨c, v, d, rfl, h⟩
  · rw [h]
    cases q with
    | vote c v => exact hcast c v
    | _ => rfl
  · rw [h]
    rfl
  · rw [h]
    exact hcast c v

theorem free_performAll (p : Party) (qs : List Request) (w : World) :
    (w.performAll .never p qs).state.poll.free = w.poll.free := by
  refine Outcome.each_keeps (P := fun v : World => v.poll.free = w.poll.free) (fun q _ v hv => ?_) rfl
  exact (free_perform .never p q v).trans hv

variable {v : World} {p : Party} {k : Member} {qs : List Request}

/-- A newcomer stands with what it has asked on the way. -/
theorem Fresh.standing_newcomer (h : w.Fresh) (hp : p.IsMember)
    (hvacant : w.member? p = none ∨ p = .alarm ∨ p = .call) (hk : k.Starts qs) (hmoved : Moved p qs w v)
    (hseat : v.member? p = some k) : v.standing p = some ⟨k, fun t => qs.foldl (Request.hears t) false,
      k.stake.map (·.vote k.isArmed), qs.filterMap Request.call?⟩ := by
  obtain ⟨hsilent, hdeaf⟩ := h.idle p hp hvacant
  have hvote : k.client?.bind v.poll.vote? = k.stake.map (·.vote k.isArmed) := by
    rw [hmoved.vote_own hk.asks_votes]
    refine hk.foldl_votes _ fun hnone => ?_
    rw [Member.client?, hnone]
    rfl
  have hears : (fun t => v.hears p t) = fun t => qs.foldl (Request.hears t) false := by
    funext t
    rw [hmoved.hears, if_pos rfl, hdeaf]
  have hcalls : v.callsOf p = qs.filterMap Request.call? := by
    rw [hmoved.calls p hp, if_pos rfl, hsilent, List.nil_append]
  rw [standing_eq hseat, hvote, hears, hcalls]

/-- A member that starts in service joins a fresh world, if nobody else votes as its client. -/
theorem Fresh.join (h : w.Fresh) (hp : p.IsMember) (hvacant : w.member? p = none ∨ p = .alarm ∨ p = .call)
    (hk : k.Starts qs) (hclient : ∀ c, k.client? = some c → c.number < w.poll.free ∧ ∀ q, w.clientOf q ≠ some c)
    (hcalls : p = .alarm ∨ p = .call → qs.filterMap Request.call? = []) (hmoved : Moved p qs w v)
    (hfree : v.poll.free = w.poll.free) (hseats : ∀ q, v.member? q = if q = p then some k else w.member? q) :
    v.Fresh := by
  have hown := h.standing_newcomer hp hvacant hk hmoved ((hseats p).trans (if_pos rfl))
  have hother : ∀ q, q ≠ p → v.standing q = w.standing q := by
    intro q hq
    refine standing_bystander ((hseats q).trans (if_neg hq)) hmoved (fun u hu => ?_) hq
    exact (hclient u.1 (hk.asks_votes u hu)).2 q
  have hclientOf : ∀ q, v.clientOf q = if q = p then k.client? else w.clientOf q := by
    intro q
    split
    · rename_i hq
      rw [hq, clientOf, hown, Option.bind_some]
    · rename_i hq
      rw [clientOf, hother q hq, clientOf]
  refine ⟨⟨fun q r c hq hr => ?_, fun q s hs => ?_⟩, fun q c hq => ?_, fun q hq hidle => ?_⟩
  · rw [hclientOf] at hq hr
    by_cases hqp : q = p
    · by_cases hrp : r = p
      · rw [hqp, hrp]
      · rw [if_pos hqp] at hq
        rw [if_neg hrp] at hr
        exact absurd hr ((hclient c hq).2 r)
    · rw [if_neg hqp] at hq
      by_cases hrp : r = p
      · rw [if_pos hrp] at hr
        exact absurd hq ((hclient c hr).2 q)
      · rw [if_neg hrp] at hr
        exact h.weathers.apart q r c hq hr
  · by_cases hqp : q = p
    · rw [hqp, hown] at hs
      cases hs
      exact Or.inr hk.sound
    · rw [hother q hqp] at hs
      exact h.weathers.standing q s hs
  · rw [hclientOf] at hq
    rw [hfree]
    split at hq
    · exact (hclient c hq).1
    · exact h.clients q c hq
  · by_cases hqp : q = p
    · have hsilencer : p = .alarm ∨ p = .call := by
        rw [hseats, if_pos hqp, hqp] at hidle
        exact hidle.resolve_left (Option.some_ne_none k)
      obtain ⟨hsilent, hdeaf⟩ := h.idle p hp hvacant
      have hnothing := hcalls hsilencer
      subst hqp
      refine ⟨?_, fun t => ?_⟩
      · rw [hmoved.calls q hq, if_pos rfl, hsilent, hnothing]
        rfl
      · rw [hmoved.hears, if_pos rfl, hdeaf, Holding.foldl_hears, Holding.asked, hnothing]
        rfl
    · rw [hseats, if_neg hqp] at hidle
      obtain ⟨hsilent, hdeaf⟩ := h.idle q hq hidle
      refine ⟨?_, fun t => ?_⟩
      · rw [hmoved.calls q hq, if_neg hqp, hsilent]
      · rw [hmoved.hears, if_neg hqp, hdeaf]

/-- The same, if it is seated first and then asks. -/
theorem Fresh.seated (h : w.Fresh) (hp : p.IsMember) (hvacant : w.member? p = none ∨ p = .alarm ∨ p = .call)
    (hk : k.Starts qs) (hclient : ∀ c, k.client? = some c → c.number < w.poll.free ∧ ∀ q, w.clientOf q ≠ some c)
    (hcalls : p = .alarm ∨ p = .call → qs.filterMap Request.call? = []) {u : World} (hmoved : Moved p [] w u)
    (hfree : u.poll.free = w.poll.free) (hseats : ∀ q, u.member? q = if q = p then some k else w.member? q) :
    (performAll .never p qs u).state.Fresh := by
  obtain ⟨v, hv, hworked, hmembers⟩ := performAll_never p qs u
  have hfree' := free_performAll p qs u
  rw [hv] at hfree' ⊢
  exact h.join hp hvacant hk hclient hcalls (hmoved.trans hworked.toMoved) (hfree'.trans hfree)
    fun q => (hmembers q).trans (hseats q)

theorem member?_observers (w : World) (o : Observer) (order : List Nat) (q : Party) :
    ({ w with observers := w.observers ++ [o], order := order } : World).member? q =
      if q = .observer w.observers.length then some (.observer o) else w.member? q := by
  cases q with
  | observer i =>
    by_cases hi : i = w.observers.length
    · simp [member?, hi]
    · have hne : Party.observer i ≠ .observer w.observers.length := fun e => hi (Party.observer.inj e)
      rw [if_neg hne]
      rcases Nat.lt_or_gt_of_ne hi with hlt | hgt
      · simp [member?, List.getElem?_append_left hlt]
      · have hlong : (w.observers ++ [o]).length ≤ i := by
          rw [List.length_append, List.length_singleton]
          exact hgt
        simp only [member?, List.getElem?_eq_none hlong, List.getElem?_eq_none (Nat.le_of_lt hgt)]
  | _ => rfl

theorem Fresh.append (h : w.Fresh) {o : Observer} (hk : (Member.observer o).Starts qs)
    (hclient : ∀ c, (Member.observer o).client? = some c → c.number < w.poll.free ∧ ∀ q, w.clientOf q ≠ some c) :
    (w.append o qs).Fresh := by
  have hvacant : w.member? (.observer w.observers.length) = none := by simp [member?]
  have hsilencer : Party.observer w.observers.length = .alarm ∨ Party.observer w.observers.length = .call →
      qs.filterMap Request.call? = [] := by
    rintro (hsilencer | hsilencer) <;> cases hsilencer
  exact (h.reorder (w.order ++ [w.observers.length])).seated (Party.isMember_observer _) (Or.inl hvacant) hk hclient
    hsilencer
    (moved_nil _ rfl rfl rfl rfl rfl rfl) rfl (w.member?_observers o _)

/-- A client that has just been enrolled is taken by nobody. -/
theorem Fresh.enrolled (h : w.Fresh) {c : Client} (hc : c = w.poll.enrol.1) :
    c.number < w.poll.enrol.2.free ∧ ∀ q, ({ w with poll := w.poll.enrol.2 } : World).clientOf q ≠ some c := by
  subst hc
  refine ⟨Nat.lt_succ_self _, fun q hq => ?_⟩
  exact absurd (h.clients q _ hq) (Nat.lt_irrefl _)

theorem Fresh.add (h : w.Fresh) (t : Timings) (b : Blueprint) : (w.add t b).Fresh := by
  have hsilent : ∀ o : Observer, (Member.observer o).client? = none → ∀ c, (Member.observer o).client? = some c →
      c.number < w.poll.free ∧ ∀ q, w.clientOf q ≠ some c := by
    intro o ho c hc
    rw [ho] at hc
    cases hc
  cases b with
  | doze => exact h.append Member.starts_doze (hsilent _ rfl)
  | flashlight sink => exact h.append (Member.starts_flashlight sink) (hsilent _ rfl)
  | pickup sink enabled => exact h.append (Member.starts_pickup sink enabled) (hsilent _ rfl)
  | unstow sink enabled => exact h.append (Member.starts_unstow sink enabled) (hsilent _ rfl)
  | approach sink enabled =>
    refine h.enrol.append (Member.starts_approach _ sink enabled) fun c hc => ?_
    exact h.enrolled (Option.some.inj hc).symm
  | attentive mode enabled =>
    refine h.enrol.append (Member.starts_attentive _ mode t enabled) fun c hc => ?_
    exact h.enrolled (Option.some.inj hc).symm
  | recorder name => exact h.append (Member.starts_recorder name) (hsilent _ rfl)

theorem Fresh.addAlarm (h : w.Fresh) (t : Timings) (enabled : Bool) : (w.addAlarm t enabled).Fresh := by
  refine h.enrol.seated (p := .alarm) (k := .alarm w.poll.enrol.1 (AlarmSilencer.initial t.silenceDelay enabled))
    Party.isMember_alarm (Or.inr (Or.inl rfl)) (Member.starts_alarm ..) (fun c hc => ?_) (fun _ => rfl)
    (moved_nil _ rfl rfl rfl rfl rfl rfl) rfl fun q => ?_
  · exact h.enrolled (Option.some.inj hc).symm
  · cases q <;> rfl

theorem Fresh.addCall (h : w.Fresh) (t : Timings) (enabled : Bool) : (w.addCall t enabled).Fresh := by
  refine h.enrol.seated (p := .call) (k := .call w.poll.enrol.1 (CallSilencer.initial t.silenceDelay enabled))
    Party.isMember_call (Or.inr (Or.inr rfl)) (Member.starts_call ..) (fun c hc => ?_) (fun _ => rfl)
    (moved_nil _ rfl rfl rfl rfl rfl rfl) rfl fun q => ?_
  · exact h.enrolled (Option.some.inj hc).symm
  · cases q <;> rfl

theorem Fresh.addPart (h : w.Fresh) (x : Timings × Part) : (w.addPart x).Fresh := by
  obtain ⟨t, part⟩ := x
  cases part with
  | observer b => exact h.add t b
  | alarm enabled => exact h.addAlarm t enabled
  | call enabled => exact h.addCall t enabled

/-- Whatever a world is put together from, nobody in it has been told anything yet. -/
theorem fresh_assembled (start : Instant) (dozeInterval vibration : Span) (flashlight : Bool)
    (parts : List (Timings × Part)) : (assembled start dozeInterval vibration flashlight parts).Fresh := by
  unfold assembled
  have h := fresh_initial start dozeInterval vibration flashlight
  generalize initial start dozeInterval vibration flashlight = u at h
  induction parts generalizing u with
  | nil => exact h
  | cons x r ih => exact ih (u.addPart x) (h.addPart x)

end World

end GestureActions
