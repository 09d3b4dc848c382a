import GestureActions.Proofs.Faults.Assembly
import GestureActions.Proofs.Motion.Recall
import GestureActions.Proofs.Service.Redundancy
import GestureActions.Proofs.Silencer.Answers
import GestureActions.Proofs.System.Moments

/-! # When a trigger of the dark screen goes off

A trigger goes off at a reading that falls after one that did not, of those that got through
to it since it was armed; a lifted device must not be stowed besides. What came before it was
disarmed has no part in that. The readings are those it is given, registered or not, and those
of the sensors it is registered for.
-/
namespace GestureActions

namespace Sentry

/-- No call comes of a notice that no change of a duty asks for. -/
theorem Responds.count_calls {κ : Type} {r : Routine κ} {now : Instant} {s : Sentry κ}
    {a : Reaction Effect (Sentry κ)} (ha : s.Responds r now a) {call : Call}
    (hr : ∀ d c, Duty.Changes r now d c → (c.2.filterMap Request.call?).count call = 0) :
    (a.requests.filterMap Request.call?).count call = 0 := by
  cases ha with
  | still => rfl
  | switch on hd => rfl
  | change on present hd hc =>
    rw [Reaction.requests, List.nil_append, List.flatMap_nil, List.append_nil]
    exact hr _ _ hc

/-- A sentry is left as it is by a reading that its routine makes nothing of. -/
theorem keeps_hear {κ : Type} {r : Routine κ} {now : Instant} {x : Reading} (hahead : r.ahead x = [])
    (hhear : ∀ on core, r.hear on now x core = (core, [], [])) (s : Sentry κ) :
    (s.hear r now x).Keeps s ∧ (s.hear r now x).after = [] := by
  cases ha : s.isArmed with
  | false =>
    rw [hear_of_disarmed r now x ha]
    exact ⟨⟨hahead, rfl, rfl⟩, rfl⟩
  | true =>
    obtain ⟨on, _ | d⟩ := s
    · cases ha
    · rw [hear_of_armed r now x on ha, hhear]
      exact ⟨⟨hahead, rfl, rfl⟩, rfl⟩

end Sentry

/-- A trigger with a sink that remembers, if it is armed, the readings it has got. -/
def Member.Recalls (e : Trigger) (sink : Sink) (got : List Reading) : Member → Prop
  | observer (.pickup sink' s) => e = .lift ∧ sink' = sink ∧ s.Recalls Pickup.memory got
  | observer (.unstow sink' s) => e = .unstow ∧ sink' = sink ∧ s.Recalls Unstow.memory got
  | _ => False

namespace Member

variable {e : Trigger} {sink : Sink} {got : List Reading} {k : Member} {g : Signals}

theorem recalls_cases (hk : k.Recalls e sink got) :
    (∃ s, k = observer (.pickup sink s) ∧ e = .lift ∧ s.Recalls Pickup.memory got) ∨
    ∃ s, k = observer (.unstow sink s) ∧ e = .unstow ∧ s.Recalls Unstow.memory got := by
  cases k with
  | observer o =>
    cases o with
    | pickup sink' s =>
      obtain ⟨rfl, rfl, hs⟩ := hk
      exact Or.inl ⟨s, rfl, rfl, hs⟩
    | unstow sink' s =>
      obtain ⟨rfl, rfl, hs⟩ := hk
      exact Or.inr ⟨s, rfl, rfl, hs⟩
    | _ => exact hk.elim
  | _ => exact hk.elim

theorem Recalls.due (hk : k.Recalls e sink got) (g : Signals) : k.due g = g.lift := by
  rcases recalls_cases hk with ⟨s, rfl, _⟩ | ⟨s, rfl, _⟩ <;> rfl

theorem Recalls.holds (hk : k.Recalls e sink got) (t : Sensor) :
    k.holds (.sensor t) = (k.isArmed && decide (t ∈ e.sensors)) := by
  rw [holds_sensor]
  rcases recalls_cases hk with ⟨s, rfl, rfl, _⟩ | ⟨s, rfl, rfl, _⟩ <;>
    cases t <;> simp [role, Role.listens, Trigger.sensors]

/-- A trigger at a notice, which does not set it off. -/
theorem Recalls.notice (hk : k.Recalls e sink got) (now : Instant) (n : Notice) :
    (k.react now (.notice n)).next.Recalls e sink (if k.isArmed then got else []) ∧
      (k.react now (.notice n)).after = [] := by
  rcases recalls_cases hk with ⟨s, rfl, rfl, hs⟩ | ⟨s, rfl, rfl, hs⟩
  · have hresponds := s.responds_notice (Pickup.routine sink) false now n
    exact ⟨⟨rfl, rfl, hresponds.recalls (Pickup.recalls sink) hs⟩, hresponds.after⟩
  · have hresponds := s.responds_notice (Unstow.routine sink) false now n
    exact ⟨⟨rfl, rfl, hresponds.recalls (Unstow.recalls sink) hs⟩, hresponds.after⟩

theorem Recalls.reading (hk : k.Recalls e sink got) (hf : k.Follows g) (now : Instant) (r : Reading) :
    (k.react now (.reading r)).next.Recalls e sink (got ++ [r]) ∧
      (k.react now (.reading r)).before = [] ∧ (k.react now (.reading r)).during = [] ∧
      (k.react now (.reading r)).after = if k.isArmed && e.fires got r then [.fire sink] else [] := by
  rcases recalls_cases hk with ⟨s, rfl, rfl, hs⟩ | ⟨s, rfl, rfl, hs⟩
  · obtain ⟨hnext, hrest⟩ := hs.hear (Pickup.recalls sink) hf now r
    exact ⟨⟨rfl, rfl, hnext⟩, hrest⟩
  · obtain ⟨hnext, hrest⟩ := hs.hear (Unstow.recalls sink) hf now r
    exact ⟨⟨rfl, rfl, hnext⟩, hrest⟩

/-- A reading without a flag leaves a trigger as it is. -/
theorem Recalls.keeps (hk : k.Recalls e sink got) (now : Instant) {r : Reading} (hr : r.flag? = none) :
    (k.react now (.reading r)).Keeps k ∧ (k.react now (.reading r)).after = [] := by
  rcases recalls_cases hk with ⟨s, rfl, _⟩ | ⟨s, rfl, _⟩
  · have hhear : ∀ on core, (Pickup.routine sink).hear on now r core = (core, [], []) := fun on core => by
      simp [Pickup.routine, Pickup.hear, hr]
    obtain ⟨hkeeps, hafter⟩ := Sentry.keeps_hear rfl hhear s
    exact ⟨(hkeeps.map _).map _, hafter⟩
  · have hhear : ∀ on core, (Unstow.routine sink).hear on now r core = (core, [], []) := fun on core => by
      simp [Unstow.routine, Unstow.hear, hr]
    obtain ⟨hkeeps, hafter⟩ := Sentry.keeps_hear rfl hhear s
    exact ⟨(hkeeps.map _).map _, hafter⟩

theorem Recalls.acts_notice (hk : k.Recalls e sink got) (now : Instant) (n : Notice) :
    ((k.react now (.notice n)).requests.filterMap Request.call?).count .act = 0 := by
  rcases recalls_cases hk with ⟨s, rfl, _⟩ | ⟨s, rfl, _⟩
  · refine (s.responds_notice (Pickup.routine sink) false now n).count_calls fun d c hc => ?_
    cases hc <;> rfl
  · refine (s.responds_notice (Unstow.routine sink) false now n).count_calls fun d c hc => ?_
    cases hc <;> rfl

/-- Neither the alarm nor the line is anything to a trigger. -/
theorem Recalls.still (hk : k.Recalls e sink got) (now : Instant) :
    (∀ on, k.react now (.ringing on) = .still k) ∧ ∀ l, k.react now (.line l) = .still k := by
  rcases recalls_cases hk with ⟨s, rfl, _⟩ | ⟨s, rfl, _⟩ <;> exact ⟨fun _ => rfl, fun _ => rfl⟩

theorem recalls_of_disarmed (hk : k.Recalls e sink got) (h : k.isArmed = false) (got' : List Reading) :
    k.Recalls e sink got' := by
  rcases recalls_cases hk with ⟨s, rfl, rfl, _⟩ | ⟨s, rfl, rfl, _⟩
  · exact ⟨rfl, rfl, Sentry.recalls_of_disarmed h _ got'⟩
  · exact ⟨rfl, rfl, Sentry.recalls_of_disarmed h _ got'⟩

theorem Follows.isArmed_reading (hf : k.Follows g) (now : Instant) (r : Reading) :
    (k.react now (.reading r)).next.isArmed = k.isArmed := by
  rw [(hf.react now (.reading r)).isArmed, hf.isArmed]
  exact (fixed_due g).react now _ k

end Member

namespace Trigger

/-- The sensors that an armed trigger is registered for. -/
def hears (e : Trigger) (t : Sensor) : Bool := t ∈ e.sensors

/-- The readings that get through to an armed trigger. -/
def gets (e : Trigger) (p : Party) (l : List Stimulus) : List Reading := l.filterMap (·.reading? p e.hears)

end Trigger

namespace Standing

variable {e : Trigger} {sink : Sink} {got : List Reading} {g : Signals} {s : Standing}

theorem hears_of_armed (hk : s.member.Recalls e sink got) (hb : s.Balanced) (ha : s.member.isArmed = true) :
    s.hears = e.hears := by
  funext t
  rw [hb.hears, hk.holds, ha, Bool.true_and]
  rfl

/-- What an armed trigger remembers grows by the readings that get through to it. -/
theorem recalls_met (hk : s.member.Recalls e sink got) (hf : s.Follows g) (hb : s.Balanced) (now : Instant) (p : Party)
    (x : Stimulus) : (s.met now p x).member.Recalls e sink
      (if s.member.isArmed then got ++ (x.reading? p e.hears).toList else []) := by
  have hstill : s.member.Recalls e sink (if s.member.isArmed then got else []) := by
    cases ha : s.member.isArmed with
    | true => exact hk
    | false => exact Member.recalls_of_disarmed hk ha []
  cases hr : x.reading? p s.hears with
  | some r =>
    have hnext := (hk.reading hf.member now r).1
    rw [met_of_reading hr]
    cases ha : s.member.isArmed with
    | true =>
      rw [← hears_of_armed hk hb ha, hr]
      exact hnext
    | false => exact Member.recalls_of_disarmed hnext ((hf.member.isArmed_reading now r).trans ha) []
  | none =>
    have hsame : (if s.member.isArmed then got ++ (x.reading? p e.hears).toList else []) =
        if s.member.isArmed then got else [] := by
      split
      · rename_i ha
        rw [← hears_of_armed hk hb ha, hr]
        exact List.append_nil got
      · rfl
    rw [hsame]
    rcases met_of_no_reading hr now with hs | ⟨m, _, hm, hs⟩
    · rwa [hs]
    · rw [hs]
      cases m with
      | notice n => exact (hk.notice now n).1
      | reading r => exact absurd rfl (hm r)
      | ringing on => rwa [told_of_still ((hk.still now).1 on)]
      | line l => rwa [told_of_still ((hk.still now).2 l)]

/-- What a trigger does once a stimulus has got through to it. -/
theorem after_of_recalls (hk : s.member.Recalls e sink got) (hf : s.Follows g) (hb : s.Balanced) (now : Instant)
    (p : Party) (x : Stimulus) : (x.reading? p s.hears).elim [] (fun r => (s.member.react now (.reading r)).after) =
      if s.member.isArmed && (x.reading? p e.hears).any (e.fires got ·) then [.fire sink] else [] := by
  cases ha : s.member.isArmed with
  | true =>
    rw [hears_of_armed hk hb ha]
    cases x.reading? p e.hears with
    | none => rfl
    | some r => rw [Option.elim_some, (hk.reading hf.member now r).2.2.2, ha]; rfl
  | false =>
    cases x.reading? p s.hears with
    | none => rfl
    | some r => rw [Option.elim_some, (hk.reading hf.member now r).2.2.2, ha]; rfl

/-- The counted action is called for when the trigger goes off, and at no other time. -/
theorem acts_met (hk : s.member.Recalls e sink got) (hf : s.Follows g) (hb : s.Balanced) (now : Instant) (p : Party)
    (x : Stimulus) : (s.met now p x).calls.count .act = s.calls.count .act +
      if sink = .counter && (s.member.isArmed && (x.reading? p e.hears).any (e.fires got ·)) then 1 else 0 := by
  have hafter := after_of_recalls hk hf hb now p x
  have hcalls : ∀ m, (s.told now m).calls = s.calls ++ (s.member.react now m).requests.filterMap Request.call? :=
    fun _ => rfl
  cases hr : x.reading? p s.hears with
  | some r =>
    obtain ⟨_, hbefore, hduring, _⟩ := hk.reading hf.member now r
    rw [hr, Option.elim_some] at hafter
    rw [met_of_reading hr, hcalls, List.count_append, Reaction.requests, hbefore, hduring, hafter]
    congr 1
    cases s.member.isArmed && (x.reading? p e.hears).any (e.fires got ·) with
    | true => cases sink <;> rfl
    | false => rw [Bool.and_false]; rfl
  | none =>
    rw [hr, Option.elim_none] at hafter
    have hoff : (s.member.isArmed && (x.reading? p e.hears).any (e.fires got ·)) = false := by
      by_contra hon
      rw [if_pos (Bool.not_eq_false _ ▸ hon)] at hafter
      cases hafter
    rw [hoff, Bool.and_false]
    rcases met_of_no_reading hr now with hs | ⟨m, _, hm, hs⟩
    · rw [hs]
      rfl
    · rw [hs]
      cases m with
      | notice n => rw [hcalls, List.count_append, hk.acts_notice now n]; rfl
      | reading r => exact absurd rfl (hm r)
      | ringing on => rw [told_of_still ((hk.still now).1 on)]; rfl
      | line l => rw [told_of_still ((hk.still now).2 l)]; rfl

end Standing

namespace World

variable {e : Trigger} {sink : Sink} {got : List Reading} {g : Signals} {p : Party} {w : World} {s : Standing}

/-- In a world with a single member, that member does all that is done for the sinks. -/
theorem effects_of_sole (hw : w.Orderly) (hsole : ∀ q, q ≠ p → w.member? q = none) (x : Stimulus) :
    w.effects x = x.message?.elim [] fun m => if p ∈ w.audience x then w.effectsOf m p else [] := by
  unfold effects
  cases x.message? with
  | none => rfl
  | some m =>
    have hnil : ∀ q, q ≠ p → (w.effectsOf m q).filter (fun _ => true) = [] := fun q hq => by
      rw [effectsOf, hsole q hq]
      rfl
    have hfilter := filter_flatMap_of_sole (nodup_audience hw x) hnil
    simpa using hfilter

theorem effects_of_recalls (hw : w.Orderly) (hsole : ∀ q, q ≠ p → w.member? q = none) (hs : w.standing p = some s)
    (hk : s.member.Recalls e sink got) (x : Stimulus) :
    w.effects x = (x.reading? p s.hears).elim [] fun r => (s.member.react w.now (.reading r)).after := by
  obtain ⟨k, hm, rfl⟩ := Option.map_eq_some_iff.mp hs
  have heffects : ∀ m, w.effectsOf m p = (k.react w.now m).after := fun m => by
    rw [effectsOf, hm]
    rfl
  rw [effects_of_sole hw hsole]
  cases x with
  | event b =>
    cases hx : (Stimulus.event b).message? with
    | none => rfl
    | some m =>
      have hnil : (k.react w.now m).after = [] := by
        cases m with
        | notice n => exact (hk.notice w.now n).2
        | reading r => rcases Stimulus.eq_of_reading hx with he | ⟨q, he⟩ <;> cases he
        | ringing on => rw [(hk.still w.now).1 on]; rfl
        | line l => rw [(hk.still w.now).2 l]; rfl
      rw [Option.elim_some, heffects, hnil]
      exact ite_self []
  | emission r =>
    rw [Stimulus.message?, Option.elim_some, heffects, Stimulus.reading?]
    by_cases hr : w.hears p r.sensor = true
    · have hmem : p ∈ w.audience (.emission r) := by
        simpa [audience, hearers, Registry.mem_listeners, World.hears] using hr
      rw [if_pos hmem, if_pos hr]
      rfl
    · have hmem : p ∉ w.audience (.emission r) := by
        simpa [audience, hearers, Registry.mem_listeners, World.hears] using hr
      rw [if_neg hmem, if_neg hr]
      rfl
  | delivery r q =>
    rw [Stimulus.message?, Option.elim_some, heffects, Stimulus.reading?, audience]
    by_cases hq : q = p
    · rw [if_pos hq, if_pos (List.mem_singleton.mpr hq.symm)]
      rfl
    · rw [if_neg hq, if_neg fun hp => hq (List.mem_singleton.mp hp).symm]
      rfl
  | clock t => rfl

theorem tell_of_keeps {k : Member} {m : Message} (hp : w.member? p = some k) (hk : (k.react w.now m).Keeps k)
    (hafter : (k.react w.now m).after = []) (refuses : Refusals) : w.tell refuses m p = .done w := by
  unfold tell
  rw [hp]
  dsimp only
  rw [carryOut, hk.before, hk.during, hk.next, hafter]
  exact congrArg Outcome.done (seat_self hp)

/-- How often a party has called for the counted action. -/
def acts (p : Party) (w : World) : Nat := (w.callsOf p).count .act

end World

namespace Trigger

def blueprint (sink : Sink) (enabled : Bool) : Trigger → Blueprint
  | lift => .pickup sink enabled
  | unstow => .unstow sink enabled

/-- A trigger with nobody else about. -/
def rig (e : Trigger) (start : Instant) (t : Timings) (sink : Sink) (enabled : Bool) : World :=
  (World.initial start t.dozeInterval t.vibration true).add t (e.blueprint sink enabled)

def party : Party := .observer 0

/-- Whether the screen is off and the switch is on after a history. -/
def armedAfter (enabled : Bool) (h : List Stimulus) : Bool := ((Member.unheard enabled).after h).lift

/-- A stimulus that comes after a history and is to set a trigger off: it brings a reading that
does so after those that got through since the trigger was armed. -/
def SetOff (e : Trigger) (enabled : Bool) (h : List Stimulus) (x : Stimulus) : Prop :=
  ∃ k r, Stimulus.Rose (armedAfter enabled) h k ∧ x.reading? party e.hears = some r ∧
    e.fires (e.gets party (h.drop (k.length + 1))) r = true

/-- A lone trigger that knows a history. -/
structure Recalls (e : Trigger) (sink : Sink) (enabled : Bool) (h : List Stimulus) (w : World) : Prop where
  orderly : w.Orderly
  sole : ∀ q, q ≠ party → w.member? q = none
  standing : ∃ s got, w.standing party = some s ∧ s.Follows ((Member.unheard enabled).after h) ∧ s.Balanced ∧
    s.member.Recalls e sink got ∧
    ∀ k, Stimulus.Rose (armedAfter enabled) h k → got = e.gets party (h.drop (k.length + 1))

variable {e : Trigger} {sink : Sink} {enabled : Bool} {h : List Stimulus} {w : World}

theorem gets_snoc (e : Trigger) (p : Party) (l : List Stimulus) (x : Stimulus) :
    e.gets p (l ++ [x]) = e.gets p l ++ (x.reading? p e.hears).toList := by
  rw [gets, List.filterMap_append]
  cases hx : x.reading? p e.hears <;> simp [hx, gets]

theorem setOff_iff {got : List Reading}
    (hgot : ∀ k, Stimulus.Rose (armedAfter enabled) h k → got = e.gets party (h.drop (k.length + 1))) (x : Stimulus) :
    e.SetOff enabled h x ↔ (armedAfter enabled h && (x.reading? party e.hears).any (e.fires got ·)) = true := by
  rw [Bool.and_eq_true_iff]
  constructor
  · rintro ⟨k, r, hk, hx, hr⟩
    refine ⟨hk.holds, ?_⟩
    rw [hx, Option.any_some, hgot k hk]
    exact hr
  · rintro ⟨ha, hx⟩
    obtain ⟨k, hk⟩ := Stimulus.rose_of_on (by rfl) ha
    obtain ⟨r, hr, hfires⟩ := (Option.any_eq_true ..).mp hx
    exact ⟨k, r, hk, hr, hgot k hk ▸ hfires⟩

theorem Recalls.meet (hw : e.Recalls sink enabled h w) (x : Stimulus) :
    ∃ v, w.meet .never x = .done v ∧ e.Recalls sink enabled (h ++ [x]) v := by
  obtain ⟨s, got, hs, hf, hb, hk, hgot⟩ := hw.standing
  obtain ⟨v, hv, hm⟩ := World.meet_never hw.orderly x
  have hs' : v.standing party = some (s.met w.now party x) := by rw [hm.standing, hs, Option.map_some]
  have hf' := hf.met w.now party x
  rw [← Signals.after_snoc] at hf'
  have harmed : s.member.isArmed = armedAfter enabled h := hf.member.isArmed.trans (hk.due _)
  refine ⟨v, hv, hm.orderly, fun q hq => ?_, _, _, hs', hf', hb.met w.now party x,
    Standing.recalls_met hk hf hb w.now party x, fun k hr => ?_⟩
  · have hnone : v.standing q = none := by rw [hm.standing, World.standing, hw.sole q hq]; rfl
    exact Option.map_eq_none_iff.mp hnone
  · rw [harmed]
    obtain ⟨_, ⟨hwas, hr⟩ | ⟨hwas, rfl⟩⟩ := hr.of_snoc
    · rw [hwas, if_pos rfl, hgot k hr, ← gets_snoc, List.drop_append_of_le_length hr.length_lt]
    · rw [hwas, List.drop_of_length_le (by simp)]
      rfl

theorem sole_rig (e : Trigger) (start : Instant) (t : Timings) (sink : Sink) (enabled : Bool) {q : Party}
    (hq : q ≠ party) : (e.rig start t sink enabled).member? q = none := by
  cases q with
  | observer i =>
    cases i with
    | zero => exact absurd rfl hq
    | succ n => cases e <;> rfl
  | _ => cases e <;> rfl

theorem recalls_rig (e : Trigger) (start : Instant) (t : Timings) (sink : Sink) (enabled : Bool) :
    e.Recalls sink enabled [] (e.rig start t sink enabled) where
  orderly := by
    refine ⟨?_, fun i hi => ?_, fun p q c hp => ?_, ?_⟩
    · cases e <;> exact List.nodup_singleton 0
    · have hparty : Party.observer i = party := by
        by_contra hne
        rw [World.standing, sole_rig e start t sink enabled hne] at hi
        cases hi
      cases hparty
      cases e <;> exact List.mem_singleton.mpr rfl
    · have hparty : p = party := by
        by_contra hne
        rw [World.clientOf, World.standing, sole_rig e start t sink enabled hne] at hp
        cases hp
      cases hparty
      cases e <;> cases hp
    · cases e <;> exact List.nodup_nil
  sole q hq := sole_rig e start t sink enabled hq
  standing := by
    have hrose : ∀ k, Stimulus.Rose (armedAfter enabled) [] k → [] = e.gets party (([] : List Stimulus).drop (k.length + 1)) :=
      fun k hk => absurd hk.length_lt (Nat.not_lt_zero _)
    cases e with
    | lift =>
      refine ⟨_, [], rfl, ⟨Sentry.heeds_initial _ _, rfl⟩, ⟨trivial, ?_, ?_⟩, ⟨rfl, rfl, Sentry.recalls_of_disarmed rfl _ []⟩, hrose⟩
      · exact Holding.each rfl rfl rfl rfl rfl
      · intro f
        cases f <;> rfl
    | unstow =>
      refine ⟨_, [], rfl, ⟨Sentry.heeds_initial _ _, rfl⟩, ⟨trivial, ?_, ?_⟩, ⟨rfl, rfl, Sentry.recalls_of_disarmed rfl _ []⟩, hrose⟩
      · exact Holding.each rfl rfl rfl rfl rfl
      · intro f
        cases f <;> rfl

theorem recalls_run (e : Trigger) (start : Instant) (t : Timings) (sink : Sink) (enabled : Bool) (h : List Stimulus) :
    ∃ w, (e.rig start t sink enabled).run .never h = .done w ∧ e.Recalls sink enabled h w := by
  induction h using List.reverseRecOn with
  | nil => exact ⟨_, rfl, recalls_rig e start t sink enabled⟩
  | append_singleton h x ih =>
    obtain ⟨w, hw, hr⟩ := ih
    obtain ⟨v, hv, hr'⟩ := hr.meet x
    exact ⟨v, World.run_snoc hw hv, hr'⟩

/-- A reading without a flag changes nothing, whoever gets it. -/
theorem Recalls.meet_of_no_flag (hw : e.Recalls sink enabled h w) {r : Reading} (hr : r.flag? = none) {x : Stimulus}
    (hx : x.message? = some (.reading r)) (refuses : Refusals) : w.meet refuses x = .done w := by
  obtain ⟨s, got, hs, _, _, hk, _⟩ := hw.standing
  obtain ⟨k, hp, rfl⟩ := Option.map_eq_some_iff.mp hs
  have hprepare : w.prepare x = w := by rcases Stimulus.eq_of_reading hx with rfl | ⟨q, rfl⟩ <;> rfl
  rw [World.meet_eq, hx, hprepare]
  refine Outcome.each_of_forall fun q _ => ?_
  by_cases hq : q = party
  · obtain ⟨hkeeps, hafter⟩ := hk.keeps w.now hr
    rw [hq]
    exact World.tell_of_keeps hp hkeeps hafter refuses
  · rw [World.tell, hw.sole q hq]

/-- In every run a trigger is armed if and only if the screen is off with the switch on. Its
action is invoked once by every reading that sets it off, and by nothing else. -/
theorem run_goesOff (e : Trigger) (start : Instant) (t : Timings) (sink : Sink) (enabled : Bool) (h : List Stimulus) :
    ∃ w, (e.rig start t sink enabled).run .never h = .done w ∧
      w.isArmed party = armedAfter enabled h ∧
      ∀ x, ∃ v, w.meet .never x = .done v ∧
        (e.SetOff enabled h x → w.effects x = [.fire sink] ∧
          (sink = .counter → v.acts party = w.acts party + 1)) ∧
        (¬ e.SetOff enabled h x → w.effects x = [] ∧ v.acts party = w.acts party) ∧
        ∀ r, x.message? = some (.reading r) → r.flag? = none → v = w := by
  obtain ⟨w, hw, hr⟩ := recalls_run e start t sink enabled h
  obtain ⟨s, got, hs, hf, hb, hk, hgot⟩ := hr.standing
  have harmed : s.member.isArmed = armedAfter enabled h := hf.member.isArmed.trans (hk.due _)
  refine ⟨w, hw, ?_, fun x => ?_⟩
  · obtain ⟨k, hp, rfl⟩ := Option.map_eq_some_iff.mp hs
    rw [World.isArmed, hp]
    exact harmed
  · obtain ⟨v, hv, hm⟩ := World.meet_never hr.orderly x
    have hs' : v.standing party = some (s.met w.now party x) := by rw [hm.standing, hs, Option.map_some]
    have hacts := Standing.acts_met hk hf hb w.now party x
    rw [← World.callsOf_of_standing hs', ← World.callsOf_of_standing hs, harmed] at hacts
    have heffects := World.effects_of_recalls hr.orderly hr.sole hs hk x
    rw [Standing.after_of_recalls hk hf hb, harmed] at heffects
    have hiff := setOff_iff hgot x
    refine ⟨v, hv, fun hset => ⟨?_, fun hc => ?_⟩, fun hset => ⟨?_, ?_⟩, fun r hx hflag => ?_⟩
    · rw [heffects, if_pos (hiff.mp hset)]
    · exact hacts.trans (by rw [hiff.mp hset, hc]; rfl)
    · rw [heffects, if_neg (mt hiff.mpr hset)]
    · exact hacts.trans (by rw [Bool.eq_false_iff.mpr (mt hiff.mpr hset), Bool.and_false]; rfl)
    · have hsame := hr.meet_of_no_flag hflag hx .never
      rw [hv] at hsame
      exact Outcome.done.inj hsame

-- a device that is lifted while it is stowed uses the edge up
example : ((lift.rig 0 .byDefault .counter true).run .never [.event .screenOff, .emission (.ofFlag .flatUp true),
    .emission (.ofFlag .stow true), .emission (.ofFlag .flatUp false), .emission (.ofFlag .stow false),
    .emission (.ofFlag .flatUp false)]).state.acts party = 0 := by decide

end Trigger

end GestureActions
