import GestureActions.Proofs.System.Telling

/-! # Each member as if it were alone

A member's standing is its state together with its affairs. Where nothing is refused, a
stimulus moves the standing of each member as its own answer says and not otherwise,
whatever company it is in and in whatever order the members are told.
-/
namespace GestureActions

open Request

/-- A member together with its affairs. -/
structure Standing where
  member : Member
  hears : Sensor → Bool
  vote : Option Vote
  calls : List Call

namespace Standing

/-- A standing whose member has become another one and has asked some requests. -/
def moved (k : Member) (qs : List Request) (s : Standing) : Standing where
  member := k
  hears t := qs.foldl (Request.hears t) (s.hears t)
  vote := (votes qs).foldl (fun _ u => some u.2) s.vote
  calls := s.calls ++ qs.filterMap Request.call?

def told (now : Instant) (m : Message) (s : Standing) : Standing :=
  let r := s.member.react now m
  { member := r.next
    hears := fun t => r.requests.foldl (Request.hears t) (s.hears t)
    vote := (votes r.requests).foldl (fun _ u => some u.2) s.vote
    calls := s.calls ++ r.requests.filterMap Request.call? }

/-- Whether a stimulus gets through to a party; a reading does if the party is registered
for its sensor or is given it. -/
def receives (p : Party) (x : Stimulus) (s : Standing) : Bool :=
  match x with
  | .event _ => true
  | .emission r => s.hears r.sensor
  | .delivery _ q => q = p
  | .clock _ => false

def met (now : Instant) (p : Party) (x : Stimulus) (s : Standing) : Standing :=
  match x.message? with
  | none => s
  | some m => if s.receives p x then s.told now m else s

theorem fixed_met {α : Type} {f : Member → α} (h : Member.Fixed f) (now : Instant) (p : Party) (x : Stimulus)
    (s : Standing) : f (s.met now p x).member = f s.member := by
  unfold met
  split
  · rfl
  · split
    · exact h.react now _ s.member
    · rfl

theorem told_of_still {now : Instant} {m : Message} {s : Standing}
    (h : s.member.react now m = .still s.member) : s.told now m = s := by
  simp [told, h, Reaction.still, Reaction.requests]

end Standing

namespace World

def standing (w : World) (p : Party) : Option Standing :=
  (w.member? p).map fun k => ⟨k, fun t => w.hears p t, k.client?.bind w.poll.vote?, w.callsOf p⟩

def clientOf (w : World) (p : Party) : Option Client := (w.standing p).bind (·.member.client?)

/-- No two parties vote as one client. -/
def Apart (w : World) : Prop := ∀ p q c, w.clientOf p = some c → w.clientOf q = some c → p = q

theorem apart_of_clientOf {w v : World} (h : ∀ q, v.clientOf q = w.clientOf q) (ha : w.Apart) : v.Apart := by
  intro p q c hp hq
  rw [h] at hp hq
  exact ha p q c hp hq

/-- Nobody but perhaps one party is an attentive display. -/
def SoleDisplay (r : Party) (w : World) : Prop :=
  ∀ p s, w.standing p = some s → p ≠ r → s.member.isDisplay = false

/-- A call of a sink or of a member, and no output that the party has no say in. -/
def Fits (w : World) (e : Entry) : Prop :=
  e.OfSink ∨ (w.standing e.party).isSome ∧ ∀ o, e.call = .output o → e.party.Says o

/-- All calls in the log are by those who can have made them. -/
def Proper (w : World) : Prop := ∀ e ∈ w.log, w.Fits e

theorem Fits.congr {w v : World} (h : ∀ p, (v.standing p).isSome = (w.standing p).isSome) {e : Entry}
    (he : w.Fits e) : v.Fits e := he.imp_right fun hs => ⟨(h e.party).trans hs.1, hs.2⟩

theorem Fits.voice {w : World} {e : Entry} (h : w.Fits e) {o : Output} (ho : e.call = .output o) : e.party.Says o := by
  rcases h with ⟨_, hclock | ⟨o', hvoice, ho'⟩⟩ | ⟨_, hvoice⟩
  · rw [ho] at hclock
    cases hclock
  · rw [ho] at ho'
    cases ho'
    exact hvoice
  · exact hvoice o ho

/-- What comes of telling some parties a message, if nothing is refused. -/
structure Told (m : Message) (ps : List Party) (w v : World) : Prop where
  clock : v.clock = w.clock
  screen : v.screen = w.screen
  order : v.order = w.order
  standing : ∀ q, v.standing q = if q ∈ ps then (w.standing q).map (·.told w.now m) else w.standing q
  stranger : ∀ c, (∀ q, w.clientOf q ≠ some c) → v.poll.vote? c = w.poll.vote? c
  outsider : ∀ q, w.standing q = none → ∀ t, v.hears q t = w.hears q t
  nodup : w.registry.pairs.Nodup → v.registry.pairs.Nodup
  inStep : w.InStep → v.InStep
  drawer : ∀ r, w.SoleDisplay r → w.SoleDrawer r → v.SoleDrawer r
  proper : w.Proper → v.Proper

theorem Told.refl (m : Message) (w : World) : Told m [] w w where
  clock := rfl
  screen := rfl
  order := rfl
  standing q := by simp
  stranger c _ := rfl
  outsider q _ t := rfl
  nodup h := h
  inStep h := h
  drawer _ _ h := h
  proper h := h

theorem Told.clientOf {m : Message} {ps : List Party} {w v : World} (h : Told m ps w v) (q : Party) :
    v.clientOf q = w.clientOf q := by
  unfold World.clientOf
  rw [h.standing]
  split
  · cases w.standing q with
    | none => rfl
    | some s => exact congrArg (Option.map (·.client)) (Member.fixed_stake.react w.now m s.member)
  · rfl

theorem Told.soleDisplay {m : Message} {ps : List Party} {w v : World} (h : Told m ps w v) {r : Party}
    (hr : w.SoleDisplay r) : v.SoleDisplay r := by
  intro p s hs hp
  rw [h.standing] at hs
  split at hs
  · obtain ⟨t, ht, rfl⟩ := Option.map_eq_some_iff.mp hs
    exact (Member.fixed_isDisplay.react w.now m t.member).trans (hr p t ht hp)
  · exact hr p s hs hp

theorem Told.apart {m : Message} {ps : List Party} {w v : World} (h : Told m ps w v) (ha : w.Apart) :
    v.Apart := apart_of_clientOf h.clientOf ha

theorem standing_eq {w : World} {p : Party} {k : Member} (h : w.member? p = some k) :
    w.standing p = some ⟨k, fun t => w.hears p t, k.client?.bind w.poll.vote?, w.callsOf p⟩ := by
  rw [standing, h, Option.map_some]

theorem clientOf_eq {w : World} {p : Party} {k : Member} (h : w.member? p = some k) :
    w.clientOf p = k.client? := by
  rw [clientOf, standing_eq h, Option.bind_some]

theorem votes_react_client (now : Instant) (m : Message) (k : Member) :
    ∀ u ∈ votes (k.react now m).requests, k.client? = some u.1 := by
  intro u hu
  rw [Member.votes_react, Stake.cast] at hu
  split at hu
  · exact absurd hu List.not_mem_nil
  · unfold Member.client?
    cases hk : k.stake with
    | none => simp [hk] at hu
    | some b =>
      rw [hk, Option.map_some, Option.toList_some, List.mem_singleton] at hu
      rw [hu]
      rfl

theorem Moved.vote_own {p : Party} {qs : List Request} {w v : World} (h : Moved p qs w v)
    {d : Option Client} (hd : ∀ u ∈ votes qs, d = some u.1) :
    d.bind v.poll.vote? = (votes qs).foldl (fun _ u => some u.2) (d.bind w.poll.vote?) := by
  cases d with
  | none =>
    have hnil : votes qs = [] := List.eq_nil_iff_forall_not_mem.mpr fun u hu => nomatch hd u hu
    rw [hnil]
    rfl
  | some c =>
    rw [Option.bind_some, Option.bind_some, h.vote]
    generalize w.poll.vote? c = held
    generalize votes qs = us at hd
    induction us generalizing held with
    | nil => rfl
    | cons u r ih =>
      have hc : u.1 = c := (Option.some.inj (hd u List.mem_cons_self)).symm
      rw [List.foldl_cons, List.foldl_cons, if_pos hc]
      exact ih _ fun x hx => hd x (List.mem_cons_of_mem u hx)

theorem Moved.vote_other {p : Party} {qs : List Request} {w v : World} (h : Moved p qs w v)
    {c : Client} (hc : ∀ u ∈ votes qs, u.1 ≠ c) : v.poll.vote? c = w.poll.vote? c := by
  rw [h.vote]
  generalize votes qs = us at hc
  induction us with
  | nil => rfl
  | cons u r ih =>
    rw [List.foldl_cons, if_neg (hc u List.mem_cons_self)]
    exact ih fun x hx => hc x (List.mem_cons_of_mem u hx)

theorem standing_own {w v : World} {p : Party} {k k' : Member} {qs : List Request} (hk : w.member? p = some k)
    (hv : v.member? p = some k') (hclient : k'.client? = k.client?) (h : Moved p qs w v)
    (hqs : ∀ u ∈ votes qs, k.client? = some u.1) : v.standing p = (w.standing p).map (·.moved k' qs) := by
  rw [standing_eq hk, standing_eq hv, hclient, h.vote_own hqs, h.calls p (member?_isMember hk), if_pos rfl,
    Option.map_some, Standing.moved]
  simp only [h.hears, if_true]

/-- A party stands as it stood while another asks something, unless that votes as its client. -/
theorem standing_bystander {w v : World} {p q : Party} {qs : List Request} (hv : v.member? q = w.member? q)
    (h : Moved p qs w v) (hqs : ∀ u ∈ votes qs, w.clientOf q ≠ some u.1) (hq : q ≠ p) : v.standing q = w.standing q := by
  cases hl : w.member? q with
  | none => rw [standing, standing, hv, hl]; rfl
  | some l =>
    have hvote : l.client?.bind v.poll.vote? = l.client?.bind w.poll.vote? := by
      cases hc : l.client? with
      | none => rfl
      | some c =>
        refine h.vote_other fun u hu hcu => hqs u hu ?_
        rw [clientOf_eq hl, hc, hcu]
    rw [standing_eq hl, standing_eq (hv.trans hl), hvote, h.calls q (member?_isMember hl), if_neg hq]
    simp only [h.hears, if_neg hq]

theorem standing_other {w v : World} (ha : w.Apart) {p q : Party} {k : Member} {qs : List Request}
    (hk : w.member? p = some k) (hv : v.member? q = w.member? q) (h : Moved p qs w v)
    (hqs : ∀ u ∈ votes qs, k.client? = some u.1) (hq : q ≠ p) : v.standing q = w.standing q := by
  refine standing_bystander hv h (fun u hu hcu => hq (ha q p u.1 hcu ?_)) hq
  rw [clientOf_eq hk, hqs u hu]

theorem fits_of_requests {w : World} {p : Party} {k : Member} (hk : w.member? p = some k) (m : Message) {e : Entry}
    (he : e.Of p (k.react w.now m).requests) : w.Fits e := by
  obtain ⟨rfl, q, hq, hy⟩ := he
  refine Or.inr ⟨by rw [standing_eq hk]; rfl, fun o ho => allowed_of_voice? hk ?_⟩
  have hsuits := k.suits_react w.now m q hq
  rw [ho] at hy
  rcases hy with hy | ⟨_, hy⟩
  · cases q <;> cases hy
    exact hsuits
  · cases hy

theorem told_tell {w : World} (ha : w.Apart) (m : Message) (p : Party) :
    ∃ v, w.tell .never m p = .done v ∧ Told m [p] w v := by
  cases hk : w.member? p with
  | none =>
    refine ⟨w, by rw [tell, hk], ⟨rfl, rfl, rfl, fun q => ?_, fun _ _ => rfl, fun _ _ _ => rfl, id, id,
      fun _ _ h => h, id⟩⟩
    split
    · rename_i hq
      rw [List.mem_singleton.mp hq, standing, hk]
      rfl
    · rfl
  | some k =>
    obtain ⟨v, hv, hw, hm⟩ := tell_never hk m
    have hstanding : ∀ q, v.standing q =
        if q ∈ [p] then (w.standing q).map (·.told w.now m) else w.standing q := by
      intro q
      by_cases hq : q = p
      · subst hq
        rw [if_pos (List.mem_singleton.mpr rfl), standing_own hk ((hm q).trans (if_pos rfl))
          (k.client?_react w.now m) hw.toMoved (votes_react_client w.now m k), standing_eq hk]
        rfl
      · rw [if_neg fun h => hq (List.mem_singleton.mp h)]
        exact standing_other ha hk ((hm q).trans (if_neg hq)) hw.toMoved (votes_react_client w.now m k) hq
    have hseats : ∀ q, (v.standing q).isSome = (w.standing q).isSome := by
      intro q
      rw [hstanding]
      split <;> simp
    refine ⟨v, hv, ⟨hw.clock, hw.screen, hw.order, hstanding, fun c hc => ?_, fun q hq t => ?_, hw.nodup, hw.inStep,
      fun r hr => hw.drawer r ?_, fun hp => ?_⟩⟩
    · refine hw.vote_other fun u hu hcu => hc p ?_
      rw [clientOf_eq hk, votes_react_client w.now m k u hu, hcu]
    · rw [hw.hears, if_neg]
      rintro rfl
      rw [standing_eq hk] at hq
      cases hq
    · by_cases hp : p = r
      · exact Or.inl hp.symm
      · exact Or.inr (k.unpowered_react w.now m (hr p _ (standing_eq hk) hp))
    · have hadds := hw.adds.mono fun e he => he.elim (fits_of_requests hk m) Or.inl
      exact fun e he => (hadds.forall hp e he).congr hseats

theorem told_each {w : World} (ha : w.Apart) (m : Message) {ps : List Party} (hps : ps.Nodup) :
    ∃ v, Outcome.each (tell .never m) ps w = .done v ∧ Told m ps w v := by
  induction ps generalizing w with
  | nil => exact ⟨w, rfl, Told.refl m w⟩
  | cons p r ih =>
    obtain ⟨hp, hr⟩ := List.nodup_cons.mp hps
    obtain ⟨u, hu, hwu⟩ := told_tell ha m p
    obtain ⟨v, hv, huv⟩ := ih (hwu.apart ha) hr
    refine ⟨v, by rw [Outcome.each, hu]; exact hv, ?_⟩
    refine ⟨huv.clock.trans hwu.clock, huv.screen.trans hwu.screen, huv.order.trans hwu.order,
      fun q => ?_, fun c hc => ?_, fun q hq t => ?_, fun h => huv.nodup (hwu.nodup h), fun h => huv.inStep (hwu.inStep h),
      fun r hr h => huv.drawer r (hwu.soleDisplay hr) (hwu.drawer r hr h), fun h => huv.proper (hwu.proper h)⟩
    · have hnow : u.now = w.now := by rw [World.now, hwu.clock]; rfl
      rw [huv.standing, hwu.standing, hnow]
      by_cases hq : q = p
      · simp [hq, hp]
      · simp [hq]
    · rw [huv.stranger c fun q => by rw [hwu.clientOf]; exact hc q, hwu.stranger c hc]
    · have hu : u.standing q = none := by
        rw [hwu.standing, hq]
        exact ite_self _
      rw [huv.outsider q hu, hwu.outsider q hq]

/-- A world in which the parties are kept apart and notices reach every observer once. -/
structure Orderly (w : World) : Prop where
  order : w.order.Nodup
  seated : ∀ i, (w.standing (.observer i)).isSome → i ∈ w.order
  apart : w.Apart
  nodup : w.registry.pairs.Nodup

theorem Told.orderly {m : Message} {ps : List Party} {w v : World} (h : Told m ps w v) (hw : w.Orderly) :
    v.Orderly where
  order := h.order ▸ hw.order
  seated i hi := by
    rw [h.order]
    apply hw.seated
    rw [h.standing] at hi
    split at hi
    · simpa using hi
    · exact hi
  apart := h.apart hw.apart
  nodup := h.nodup hw.nodup

theorem nodup_audience {w : World} (hw : w.Orderly) (x : Stimulus) : (w.audience x).Nodup := by
  have hobs : (w.order.map Party.observer).Nodup := hw.order.map fun i j h => Party.observer.inj h
  cases x with
  | event e =>
    cases e with
    | screenOn => exact hobs
    | screenOff => exact hobs
    | alarm a => exact List.nodup_singleton _
    | callState c => exact List.nodup_singleton _
    | preference k v =>
      refine List.nodup_append.mpr ⟨hobs, by decide, ?_⟩
      intro p hp q hq e
      obtain ⟨i, _, rfl⟩ := List.mem_map.mp hp
      subst e
      simp at hq
  | emission r =>
    refine List.Nodup.map_on ?_ (hw.nodup.filter _)
    intro a ha b hb e
    have hsa : a.1 = r.sensor := by simpa using (List.mem_filter.mp ha).2
    have hsb : b.1 = r.sensor := by simpa using (List.mem_filter.mp hb).2
    exact Prod.ext (hsa.trans hsb.symm) e
  | delivery r p => exact List.nodup_singleton _
  | clock t => exact List.nodup_nil

/-- Whom a host event does not reach it does not concern. -/
theorem told_of_not_mem_audience {w : World} (hw : w.Orderly) {e : HostEvent} {m : Message}
    (hm : Stimulus.message? (.event e) = some m) {p : Party} (hp : p ∉ w.audience (.event e))
    {s : Standing} (hs : w.standing p = some s) : s.told w.now m = s := by
  obtain ⟨k, hk, rfl⟩ := Option.map_eq_some_iff.mp hs
  refine Standing.told_of_still ?_
  have hseat : ∀ i, p = .observer i → i ∈ w.order := by
    rintro i rfl
    exact hw.seated i (by rw [hs]; rfl)
  cases p with
  | observer i =>
    have hi := hseat i rfl
    obtain ⟨o, _, rfl⟩ := Option.map_eq_some_iff.mp hk
    cases e with
    | screenOn => exact absurd (List.mem_map_of_mem hi) hp
    | screenOff => exact absurd (List.mem_map_of_mem hi) hp
    | alarm a =>
      obtain ⟨a, _, rfl⟩ := Option.map_eq_some_iff.mp hm
      rfl
    | callState c => cases hm; rfl
    | preference k v => exact absurd (List.mem_append_left _ (List.mem_map_of_mem hi)) hp
  | alarm =>
    obtain ⟨v, _, rfl⟩ := Option.map_eq_some_iff.mp hk
    cases e with
    | screenOn => cases hm; rfl
    | screenOff => cases hm; rfl
    | alarm a => exact absurd (List.mem_singleton.mpr rfl) hp
    | callState c => cases hm; rfl
    | preference k v => exact absurd (List.mem_append_right _ List.mem_cons_self) hp
  | call =>
    obtain ⟨v, _, rfl⟩ := Option.map_eq_some_iff.mp hk
    cases e with
    | screenOn => cases hm; rfl
    | screenOff => cases hm; rfl
    | alarm a =>
      obtain ⟨a, _, rfl⟩ := Option.map_eq_some_iff.mp hm
      rfl
    | callState c => exact absurd (List.mem_singleton.mpr rfl) hp
    | preference k v =>
      exact absurd (List.mem_append_right _ (List.mem_cons_of_mem _ (List.mem_singleton.mpr rfl))) hp
  | doze => cases hk
  | flashlight => cases hk

theorem prepare_standing (w : World) (x : Stimulus) (p : Party) : (w.prepare x).standing p = w.standing p := by
  unfold prepare
  split <;> cases p <;> rfl

theorem prepare_orderly {w : World} (hw : w.Orderly) (x : Stimulus) : (w.prepare x).Orderly := by
  unfold prepare
  split <;> exact ⟨hw.order, hw.seated, hw.apart, hw.nodup⟩

theorem prepare_inStep {w : World} (hw : w.InStep) (x : Stimulus) : (w.prepare x).InStep := by
  unfold prepare
  split <;> exact ⟨hw.sound, hw.setting⟩

theorem prepare_drawer {w : World} {r : Party} (hw : w.SoleDrawer r) (x : Stimulus) :
    (w.prepare x).SoleDrawer r := by
  unfold prepare
  split <;> exact hw

theorem prepare_now {w : World} {x : Stimulus} {m : Message} (hm : x.message? = some m) :
    (w.prepare x).now = w.now := by
  unfold prepare
  split
  · rfl
  · rfl
  · cases hm
  · rfl

theorem prepare_proper {w : World} (hw : w.Proper) (x : Stimulus) : (w.prepare x).Proper := by
  have hlog : (w.prepare x).log = w.log := by
    unfold prepare
    split <;> rfl
  intro e he
  rw [hlog] at he
  exact (hw e he).congr fun p => by rw [prepare_standing]

/-- What comes of a stimulus, if nothing is refused. -/
structure Met (x : Stimulus) (w v : World) : Prop where
  clock : v.clock = (w.prepare x).clock
  standing : ∀ p, v.standing p = (w.standing p).map (·.met w.now p x)
  stranger : ∀ c, (∀ p, w.clientOf p ≠ some c) → v.poll.vote? c = w.poll.vote? c
  outsider : ∀ p, w.standing p = none → ∀ t, v.hears p t = w.hears p t
  orderly : v.Orderly
  inStep : w.InStep → v.InStep
  drawer : ∀ r, w.SoleDisplay r → w.SoleDrawer r → v.SoleDrawer r
  proper : w.Proper → v.Proper

theorem Met.soleDisplay {x : Stimulus} {w v : World} (h : Met x w v) {r : Party} (hr : w.SoleDisplay r) :
    v.SoleDisplay r := by
  intro p s hs hp
  rw [h.standing] at hs
  obtain ⟨t, ht, rfl⟩ := Option.map_eq_some_iff.mp hs
  rw [Standing.fixed_met Member.fixed_isDisplay]
  exact hr p t ht hp

theorem standing_met_of_told {w v : World} (hw : w.Orderly) {x : Stimulus} {m : Message}
    (hm : x.message? = some m) (h : Told m (w.audience x) (w.prepare x) v) (p : Party) :
    v.standing p = (w.standing p).map (·.met w.now p x) := by
  rw [h.standing, prepare_standing, prepare_now hm]
  cases hs : w.standing p with
  | none => split <;> rfl
  | some s =>
    have hmet : s.met w.now p x = if s.receives p x then s.told w.now m else s := by
      rw [Standing.met, hm]
    rw [Option.map_some, Option.map_some, hmet]
    have hreading : (p ∈ w.audience x ↔ s.receives p x = true) →
        (if p ∈ w.audience x then some (s.told w.now m) else some s) =
          some (if s.receives p x then s.told w.now m else s) := by
      intro hiff
      by_cases hp : p ∈ w.audience x
      · rw [if_pos hp, if_pos (hiff.mp hp)]
      · rw [if_neg hp, if_neg fun hr => hp (hiff.mpr hr)]
    cases x with
    | event e =>
      rw [Standing.receives, if_pos rfl]
      by_cases hp : p ∈ w.audience (.event e)
      · rw [if_pos hp]
      · rw [if_neg hp, told_of_not_mem_audience hw hm hp hs]
    | emission r =>
      obtain ⟨k, _, rfl⟩ := Option.map_eq_some_iff.mp hs
      refine hreading ?_
      simp [audience, hearers, Registry.mem_listeners, Standing.receives, World.hears]
    | delivery r q =>
      refine hreading ?_
      simp [audience, Standing.receives, eq_comm]
    | clock t => cases hm

/-- Each member meets a stimulus as if it were alone. -/
theorem meet_never {w : World} (hw : w.Orderly) (x : Stimulus) :
    ∃ v, w.meet .never x = .done v ∧ Met x w v := by
  have hpoll : (w.prepare x).poll = w.poll := by
    unfold prepare
    split <;> rfl
  have hhears : ∀ p t, (w.prepare x).hears p t = w.hears p t := by
    intro p t
    unfold prepare
    split <;> rfl
  rw [meet_eq]
  cases hm : x.message? with
  | none =>
    have hmet : ∀ p (s : Standing), s.met w.now p x = s := fun p s => by rw [Standing.met, hm]
    refine ⟨_, rfl, rfl, fun p => ?_, fun c _ => ?_, fun p _ => hhears p, prepare_orderly hw x,
      fun h => prepare_inStep h x, fun r _ h => prepare_drawer h x, fun h => prepare_proper h x⟩
    · rw [prepare_standing, funext (hmet p), Option.map_id']
    · rw [hpoll]
  | some m =>
    have ho := prepare_orderly hw x
    obtain ⟨v, hv, ht⟩ := told_each ho.apart m (nodup_audience hw x)
    refine ⟨v, hv, ht.clock, standing_met_of_told hw hm ht, fun c hc => ?_, fun p hp t => ?_, ht.orderly ho,
      fun h => ht.inStep (prepare_inStep h x), fun r hr h => ht.drawer r ?_ (prepare_drawer h x),
      fun h => ht.proper (prepare_proper h x)⟩
    · rw [ht.stranger c fun p => by rw [clientOf, prepare_standing]; exact hc p, hpoll]
    · rw [ht.outsider p ((prepare_standing w x p).trans hp), hhears]
    · intro p s hs
      rw [prepare_standing] at hs
      exact hr p s hs

end World

end GestureActions
