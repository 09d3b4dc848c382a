import GestureActions.Proofs.Faults.Soundness

/-! # Runs in which anything may be refused

A trial is a stimulus that is met while some calls are refused. Through any run of trials
every member is lost or in service. A lost one is dormant for the rest of the run, and a
pulse sink that is lost is mute.
-/
namespace GestureActions

open Request

/-- A stimulus, and what is refused while it is met. -/
structure Trial where
  refuses : Refusals
  stimulus : Stimulus

/-- A lost member's standing does not move. -/
theorem Standing.moved_of_isLost {s : Standing} (hs : s.member.IsLost) {now : Instant} {m : Message} {k : Member}
    {qs : List Request} (hk : (s.member.react now m).Ends Effect.requests s.member k qs) :
    k.IsLost ∧ (∀ q ∈ qs, q = .readClock) ∧ (s.moved k qs).hears = s.hears ∧ (s.moved k qs).vote = s.vote := by
  obtain ⟨hlost, hclock⟩ := ((s.member.founders_react now m).idles hs).ends hs hk
  have haside : ∀ q ∈ qs, q.IsAside := by
    intro q hq
    rw [hclock q hq]
    trivial
  refine ⟨hlost, hclock, funext fun t => ?_, ?_⟩
  · exact hears_of_readClock hclock t (s.hears t)
  · change List.foldl _ s.vote (votes qs) = s.vote
    rw [votes_of_isAside haside]
    rfl

namespace World

/-- The parties that a message gets to: all, or those up to the one where something is refused. -/
def reached (refuses : Refusals) (m : Message) : List Party → World → List Party
  | [], _ => []
  | p :: r, w =>
    match w.tell refuses m p with
    | .done v => p :: reached refuses m r v
    | .refused _ _ => [p]

/-- What a trial brings to whom. -/
def deliveries (t : Trial) (w : World) : List Delivery :=
  match t.stimulus.message? with
  | none => []
  | some m => (reached t.refuses m (w.audience t.stimulus) (w.prepare t.stimulus)).map fun p => ⟨p, m⟩

def undergo : List Trial → World → World
  | [], w => w
  | t :: l, w => undergo l (w.meet t.refuses t.stimulus).state

/-- What a run of trials has brought to whom. -/
def delivered : List Trial → World → List Delivery
  | [], _ => []
  | t :: l, w => w.deliveries t ++ delivered l (w.meet t.refuses t.stimulus).state

theorem Weathers.each {ds : List Delivery} {w : World} (h : w.Weathers ds) (refuses : Refusals) (m : Message)
    (ps : List Party) : (Outcome.each (World.tell refuses m) ps w).state.Weathers
      (ds ++ (reached refuses m ps w).map fun p => ⟨p, m⟩) := by
  induction ps generalizing w ds with
  | nil =>
    rw [reached, List.map_nil, List.append_nil]
    exact h
  | cons p r ih =>
    have hp := h.tell refuses m p
    rw [Outcome.each, reached]
    cases ht : w.tell refuses m p with
    | refused c v =>
      rw [ht] at hp
      exact hp
    | done v =>
      rw [ht] at hp
      have hr := ih hp
      rw [List.append_assoc] at hr
      exact hr

theorem Weathers.prepare {ds : List Delivery} {w : World} (h : w.Weathers ds) (x : Stimulus) :
    (w.prepare x).Weathers ds where
  apart := apart_of_clientOf (fun q => by rw [clientOf, prepare_standing, clientOf]) h.apart
  standing p s hs := h.standing p s (by rwa [prepare_standing] at hs)

/-- A trial leaves every member lost or in service. -/
theorem Weathers.meet {ds : List Delivery} {w : World} (h : w.Weathers ds) (t : Trial) :
    (w.meet t.refuses t.stimulus).state.Weathers (ds ++ w.deliveries t) := by
  have hprepared := h.prepare t.stimulus
  rw [meet_eq, deliveries]
  cases t.stimulus.message? with
  | none =>
    rw [List.append_nil]
    exact hprepared
  | some m => exact hprepared.each t.refuses m (w.audience t.stimulus)

theorem Weathers.undergo {ds : List Delivery} {w : World} (h : w.Weathers ds) (l : List Trial) :
    (w.undergo l).Weathers (ds ++ w.delivered l) := by
  induction l generalizing w ds with
  | nil =>
    rw [delivered, List.append_nil]
    exact h
  | cons t l ih =>
    have hl := ih (h.meet t)
    rw [List.append_assoc] at hl
    exact hl

/-- What telling and preparing keep, a run of trials keeps. -/
theorem undergo_keeps {P : World → Prop} (hprepare : ∀ x u, P u → P (u.prepare x))
    (htell : ∀ refuses m p u, P u → P (u.tell refuses m p).state) {w : World} (hw : P w) (l : List Trial) :
    P (w.undergo l) := by
  induction l generalizing w with
  | nil => exact hw
  | cons t l ih =>
    refine ih ?_
    rw [meet_eq]
    cases t.stimulus.message? with
    | none => exact hprepare t.stimulus w hw
    | some m => exact Outcome.each_keeps (fun p _ u => htell t.refuses m p u) (hprepare t.stimulus w hw)

/-- A party that has only asked for the time since an earlier world, in which its standing was
the same but for its switch. -/
structure Dormant (p : Party) (s : Standing) (w v : World) : Prop where
  apart : v.Apart
  standing : ∃ s', v.standing p = some s' ∧ s'.member.role = s.member.role ∧ s'.member.IsLost ∧
    s'.hears = s.hears ∧ s'.vote = s.vote
  adds : w.Adds (fun e => e.party = p → e.call = .readClock) v

variable {p : Party} {s : Standing} {w u : World}

theorem Dormant.prepare (h : Dormant p s w u) (x : Stimulus) : Dormant p s w (u.prepare x) where
  apart := apart_of_clientOf (fun q => by rw [clientOf, prepare_standing, clientOf]) h.apart
  standing := by
    rw [prepare_standing]
    exact h.standing
  adds := h.adds.trans <| adds_of_log <| by
    unfold World.prepare
    split <;> rfl

theorem Dormant.tell (h : Dormant p s w u) (refuses : Refusals) (m : Message) (q : Party) :
    Dormant p s w (u.tell refuses m q).state := by
  cases hl : u.member? q with
  | none =>
    rw [tell_none hl]
    exact h
  | some l =>
    obtain ⟨l', qs, hends, hmoved, hapart, hstanding⟩ := standing_tell h.apart hl refuses m
    obtain ⟨s', hs', hrole, hlost, hears, hvote⟩ := h.standing
    have hmember : p.IsMember := by
      obtain ⟨k, hk, _⟩ := Option.map_eq_some_iff.mp hs'
      exact member?_isMember hk
    by_cases hq : p = q
    · subst hq
      rw [standing_eq hl] at hs'
      cases hs'
      obtain ⟨hlost', hclock, hears', hvote'⟩ := Standing.moved_of_isLost hlost hends
      refine ⟨hapart, ⟨_, ?_, (Member.role_of_ends hends).trans hrole, hlost', hears'.trans hears, hvote'.trans hvote⟩,
        h.adds.trans (hmoved.adds.mono fun e he hp => ?_)⟩
      · rw [hstanding, if_pos rfl, standing_eq hl]
        rfl
      · rcases he with ⟨_, r, hr, hyields⟩ | hsink
        · rw [hclock r hr] at hyields
          rcases hyields with hcall | ⟨hnone, _⟩
          · exact (Option.some.inj hcall).symm
          · cases hnone
        · exact absurd (hp ▸ hmember) hsink.1
    · refine ⟨hapart, ⟨s', ?_, hrole, hlost, hears, hvote⟩, h.adds.trans (hmoved.adds.mono fun e he hp => ?_)⟩
      · rw [hstanding, if_neg hq]
        exact hs'
      · rcases he with ⟨hparty, _⟩ | hsink
        · exact absurd (hp.symm.trans hparty) hq
        · exact absurd (hp ▸ hmember) hsink.1

/-- Once a member is lost, it is dormant. -/
theorem Weathers.dormant {ds : List Delivery} (h : w.Weathers ds) (hs : w.standing p = some s) (hlost : s.member.IsLost)
    (l : List Trial) : Dormant p s w (w.undergo l) := by
  refine undergo_keeps (P := Dormant p s w) (fun x u hu => hu.prepare x) (fun refuses m q u hu => hu.tell refuses m q)
    ?_ l
  exact ⟨h.apart, ⟨s, hs, rfl, hlost, rfl, rfl⟩, adds_of_log rfl⟩

/-- A world whose pulse sink is lost, in which it has only asked for the time since an earlier
world. -/
structure Muted (w v : World) : Prop where
  throttle : v.doze.throttle = none
  adds : w.Adds (fun e => e.party = .doze → e.call = .readClock) v

theorem Muted.of_eq (h : Muted w u) {v : World} (hd : v.doze = u.doze) (hl : v.log = u.log) : Muted w v where
  throttle := (congrArg Doze.throttle hd).trans h.throttle
  adds := h.adds.trans (adds_of_log hl)

theorem doze_granted (p : Party) (q : Request) (w : World) : (w.granted p q).doze = w.doze := by
  cases q <;> rfl

theorem Muted.perform (h : Muted w u) {q : Request} (hp : p = .doze → q = .readClock) (refuses : Refusals) :
    Muted w (u.perform refuses p q).state := by
  rcases perform_cases refuses p q u with hdone | ⟨c, hrefused⟩ | ⟨c, v, d, rfl, hrefused⟩
  · rw [hdone]
    refine ⟨(congrArg Doze.throttle (doze_granted p q u)).trans h.throttle,
      h.adds.trans ((adds_granted p q u).mono fun e he hparty => ?_)⟩
    obtain ⟨hparty', hyields⟩ := he
    rw [hp (hparty'.symm.trans hparty)] at hyields
    rcases hyields with hcall | ⟨hnone, _⟩
    · exact (Option.some.inj hcall).symm
    · cases hnone
  · rw [hrefused]
    exact h
  · rw [hrefused]
    exact h.of_eq rfl rfl

theorem carryOut_keeps {ε σ : Type} {P : World → Prop} {refuses : Refusals} {put : σ → World → World}
    {eff : ε → World → Outcome World} {r : Reaction ε σ}
    (hasks : ∀ q ∈ r.before ++ r.during, ∀ u, P u → P (perform refuses p q u).state)
    (hlost : ∀ u, P u → P (put r.lost u)) (hnext : ∀ u, P u → P (put r.next u))
    (heff : ∀ e ∈ r.after, ∀ u, P u → P (eff e u).state) (hw : P w) : P (carryOut refuses p put eff r w).state := by
  have hbefore : P (w.performAll refuses p r.before).state :=
    Outcome.each_keeps (fun q hq => hasks q (List.mem_append_left _ hq)) hw
  rw [carryOut]
  cases hb : w.performAll refuses p r.before with
  | refused c u =>
    rw [hb] at hbefore
    exact hbefore
  | done u =>
    rw [hb] at hbefore
    have hduring : P (u.performAll refuses p r.during).state :=
      Outcome.each_keeps (fun q hq => hasks q (List.mem_append_right _ hq)) hbefore
    rw [Outcome.andThen]
    cases hd : u.performAll refuses p r.during with
    | refused c v =>
      rw [hd] at hduring
      exact hlost v hduring
    | done v =>
      rw [hd] at hduring
      exact Outcome.each_keeps heff (hnext v hduring)

theorem Muted.carryOutDoze (h : Muted w u) {r : Reaction Request Doze} (hasks : ∀ q ∈ r.before ++ r.during, q = .readClock)
    (hlost : r.lost.throttle = none) (hnext : r.next.throttle = none) (hafter : r.after = []) (refuses : Refusals) :
    Muted w (u.carryOutDoze refuses r).state := by
  refine carryOut_keeps (P := Muted w) (fun q hq v hv => hv.perform (fun _ => hasks q hq) refuses)
    (fun v hv => ⟨hlost, hv.adds⟩) (fun v hv => ⟨hnext, hv.adds⟩) (fun q hq => ?_) h
  rw [hafter] at hq
  exact absurd hq List.not_mem_nil

theorem Muted.effect (h : Muted w u) (hp : p ≠ .doze) (refuses : Refusals) (e : Effect) :
    Muted w (u.effect refuses p e).state := by
  have hnone : ∀ q ∈ ([] : List Request), q = .readClock := fun q hq => absurd hq List.not_mem_nil
  have hclock : ∀ q ∈ [Request.readClock], q = .readClock := fun q hq => List.mem_singleton.mp hq
  cases e with
  | ask q => exact h.perform (fun hdoze => absurd hdoze hp) refuses
  | fire k =>
    cases k with
    | doze =>
      change Muted w (u.carryOutDoze refuses (u.doze.fire u.screenIsOn u.now)).state
      unfold Doze.fire
      rw [h.throttle]
      split
      · exact h.carryOutDoze (r := .still u.doze) hnone h.throttle h.throttle rfl refuses
      · exact h.carryOutDoze (r := .asking [.readClock] u.doze) hclock h.throttle h.throttle rfl refuses
    | flashlight =>
      exact Outcome.each_keeps (P := Muted w) (fun q _ v hv => hv.perform (p := .flashlight) (fun hdoze => (by cases hdoze)) refuses) h
    | counter => exact h.perform (q := .act) (fun hdoze => absurd hdoze hp) refuses
  | inform k n =>
    cases k with
    | doze =>
      cases n with
      | screen on =>
        change Muted w (u.carryOutDoze refuses (u.doze.screen u.now on)).state
        unfold Doze.screen
        rw [h.throttle]
        exact h.carryOutDoze (r := .still u.doze) hnone h.throttle h.throttle rfl refuses
      | preference q v => exact h
    | flashlight =>
      cases n with
      | screen on => exact h
      | preference q v => exact h.of_eq rfl rfl
    | counter => exact h

theorem log_seat (w : World) (p : Party) (k : Member) : (w.seat p k).log = w.log := by
  unfold seat
  split <;> rfl

theorem doze_seat (w : World) (p : Party) (k : Member) : (w.seat p k).doze = w.doze := by
  unfold seat
  split <;> rfl

theorem Muted.tell (h : Muted w u) (refuses : Refusals) (m : Message) (p : Party) :
    Muted w (u.tell refuses m p).state := by
  cases hk : u.member? p with
  | none =>
    rw [tell_none hk]
    exact h
  | some k =>
    have hp : p ≠ .doze := (member?_isMember hk).1
    rw [World.tell, hk]
    exact carryOut_keeps (P := Muted w) (fun q _ v hv => hv.perform (fun hdoze => absurd hdoze hp) refuses)
      (fun v hv => hv.of_eq (doze_seat v p _) (log_seat v p _)) (fun v hv => hv.of_eq (doze_seat v p _) (log_seat v p _))
      (fun e _ v hv => hv.effect hp refuses e) h

/-- Once the pulse sink is lost, it is mute. -/
theorem muted_undergo (hw : w.doze.throttle = none) (l : List Trial) : Muted w (w.undergo l) := by
  refine undergo_keeps (P := Muted w) (fun x u hu => ?_) (fun refuses m q u hu => hu.tell refuses m q)
    ⟨hw, adds_of_log rfl⟩ l
  unfold prepare
  split <;> exact hu.of_eq rfl rfl

end World

end GestureActions
