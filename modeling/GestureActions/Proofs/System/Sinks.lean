import GestureActions.Proofs.Observer.Firing
import GestureActions.Proofs.System.Alone

/-! # What the sinks are moved by

Where nothing is refused, a sink is moved by the effects of the members that are told a
message, one after another, and by nothing else. What it asks meanwhile it asks in its
own name.
-/
namespace GestureActions

open Request

/-- A sink with the calls it has made. -/
structure Sinks where
  doze : Doze × List Call
  flashlight : Flashlight × List Call

def Reaction.calls {σ : Type} (r : Reaction Request σ) : List Call :=
  (r.before ++ r.during ++ r.after).filterMap Request.call?

/-- The doze sink after an effect, with the screen on or not. -/
def Doze.feel (on : Bool) (now : Instant) (d : Doze × List Call) : Effect → Doze × List Call
  | .fire .doze => ((d.1.fire on now).next, d.2 ++ (d.1.fire on now).calls)
  | .inform .doze (.screen s) => ((d.1.screen now s).next, d.2 ++ (d.1.screen now s).calls)
  | _ => d

def Flashlight.feel (f : Flashlight × List Call) : Effect → Flashlight × List Call
  | .fire .flashlight => (f.1, f.2 ++ f.1.fire.filterMap Request.call?)
  | .inform .flashlight (.preference p v) => (f.1.prefer p v, f.2)
  | _ => f

def Sinks.feel (on : Bool) (now : Instant) (s : Sinks) (e : Effect) : Sinks :=
  ⟨Doze.feel on now s.doze e, Flashlight.feel s.flashlight e⟩

theorem Sinks.foldl_feel (on : Bool) (now : Instant) (es : List Effect) (s : Sinks) :
    es.foldl (feel on now) s = ⟨es.foldl (Doze.feel on now) s.doze, es.foldl Flashlight.feel s.flashlight⟩ := by
  induction es generalizing s with
  | nil => rfl
  | cons e r ih => exact ih (s.feel on now e)

theorem Doze.feel_of_ne {e : Effect} (h : e.sink? ≠ some .doze) (on : Bool) (now : Instant) (d : Doze × List Call) :
    Doze.feel on now d e = d := by
  unfold Doze.feel
  split
  · exact absurd rfl h
  · exact absurd rfl h
  · rfl

theorem Flashlight.feel_of_ne {e : Effect} (h : e.sink? ≠ some .flashlight) (f : Flashlight × List Call) :
    Flashlight.feel f e = f := by
  unfold Flashlight.feel
  split
  · exact absurd rfl h
  · exact absurd rfl h
  · rfl

/-- A sink is moved by the effects that go to it. -/
theorem Doze.foldl_feel (on : Bool) (now : Instant) (es : List Effect) (d : Doze × List Call) :
    es.foldl (Doze.feel on now) d = (es.filter (·.sink? = some .doze)).foldl (Doze.feel on now) d := by
  rw [List.foldl_filter]
  congr 1
  funext d e
  split
  · rfl
  · rename_i h
    exact Doze.feel_of_ne (of_decide_eq_false (Bool.not_eq_true _ ▸ h)) on now d

theorem Flashlight.foldl_feel (es : List Effect) (f : Flashlight × List Call) :
    es.foldl Flashlight.feel f = (es.filter (·.sink? = some .flashlight)).foldl Flashlight.feel f := by
  rw [List.foldl_filter]
  congr 1
  funext f e
  split
  · rfl
  · rename_i h
    exact Flashlight.feel_of_ne (of_decide_eq_false (Bool.not_eq_true _ ▸ h)) f

namespace World

def sinks (w : World) : Sinks := ⟨(w.doze, w.callsOf .doze), (w.flashlight, w.callsOf .flashlight)⟩

theorem sinks_of_parts {w v : World} (hd : v.doze = w.doze) (hf : v.flashlight = w.flashlight)
    (hl : ∀ p, ¬ p.IsMember → v.callsOf p = w.callsOf p) : v.sinks = w.sinks := by
  have hdoze := hl .doze fun h => h.1 rfl
  have hflashlight := hl .flashlight fun h => h.2 rfl
  rw [sinks, sinks, hd, hf, hdoze, hflashlight]

theorem callsOf_logged_of_ne {p q : Party} (h : q ≠ p) (c : Call) (w : World) :
    (w.logged p c).callsOf q = w.callsOf q := by
  rw [callsOf_logged, if_neg h]

theorem sinks_perform {p : Party} (hp : p.IsMember) {q : Request} {w v : World}
    (h : w.perform .never p q = .done v) : v.sinks = w.sinks := by
  have hne : ∀ s : Party, ¬ s.IsMember → s ≠ p := fun s hs e => hs (e ▸ hp)
  cases q with
  | vote c u =>
    rw [perform_vote_never] at h
    cases h
    exact sinks_of_parts rfl rfl fun s _ => callsOf_configured p rfl s
  | register s => cases h; exact sinks_of_parts rfl rfl fun s hs => callsOf_logged_of_ne (hne s hs) _ w
  | unregister s => cases h; exact sinks_of_parts rfl rfl fun s hs => callsOf_logged_of_ne (hne s hs) _ w
  | _ => cases h; exact sinks_of_parts rfl rfl fun s hs => callsOf_logged_of_ne (hne s hs) _ w

theorem sinks_performAll {p : Party} (hp : p.IsMember) {qs : List Request} {w v : World}
    (h : w.performAll .never p qs = .done v) : v.sinks = w.sinks := by
  induction qs generalizing w with
  | nil => cases h; rfl
  | cons q r ih =>
    obtain ⟨u, hu, _⟩ := perform_never p q w
    rw [performAll, Outcome.each, hu] at h
    exact (ih h).trans (sinks_perform hp hu)

def noted (p : Party) (cs : List Call) (w : World) : World := { w with log := w.log ++ cs.map (⟨p, ·⟩) }

theorem callsOf_noted (p q : Party) {cs : List Call} (hc : ∀ c ∈ cs, c.setting? = none) (w : World) :
    (w.noted p cs).callsOf q = w.callsOf q ++ if p = q then cs else [] := by
  have hown : (cs.filter fun c => c.setting?.isNone) = cs :=
    List.filter_eq_self.mpr fun c hm => by rw [hc c hm]; rfl
  by_cases hq : p = q
  · have hall : ((cs.map fun c => (⟨p, c⟩ : Entry)).filter (·.party = q)).map (·.call) = cs := by
      rw [List.filter_eq_self.mpr (by simp [hq]), List.map_map]
      exact List.map_id cs
    simp only [callsOf, noted, Log.callsOf, List.filter_append, List.map_append, hall, hown, if_pos hq]
  · have hnone : (cs.map fun c => (⟨p, c⟩ : Entry)).filter (·.party = q) = [] := by simp [hq]
    simp only [callsOf, noted, Log.callsOf, List.filter_append, hnone, if_neg hq, List.append_nil]

theorem setting?_of_isQuiet {p : Party} {qs : List Request} (hq : ∀ q ∈ qs, q.IsQuiet p) :
    ∀ c ∈ qs.filterMap Request.call?, c.setting? = none := by
  intro c hc
  obtain ⟨q, hm, he⟩ := List.mem_filterMap.mp hc
  rcases hq q hm with rfl | ⟨o, _, rfl⟩ <;> cases he <;> rfl

/-- Quiet requests leave nothing but their calls. -/
theorem performAll_quiet (p : Party) {qs : List Request} (hq : ∀ q ∈ qs, q.IsQuiet p) (w : World) :
    w.performAll .never p qs = .done (w.noted p (qs.filterMap Request.call?)) := by
  induction qs generalizing w with
  | nil => simp [performAll, Outcome.each, noted]
  | cons q r ih =>
    have hr := ih fun a ha => hq a (List.mem_cons_of_mem q ha)
    rw [performAll, Outcome.each]
    rcases hq q List.mem_cons_self with rfl | ⟨o, _, rfl⟩
    · refine (hr (w.logged p .readClock)).trans ?_
      simp [noted, logged, Request.call?]
    · refine (hr (w.logged p (.output o))).trans ?_
      simp [noted, logged, Request.call?]

theorem sinks_carryOutDoze {r : Reaction Request Doze} (hq : ∀ q ∈ r.before ++ r.during ++ r.after, q.IsQuiet .doze)
    {w v : World} (h : w.carryOutDoze .never r = .done v) :
    v.sinks = ⟨(r.next, w.sinks.doze.2 ++ r.calls), w.sinks.flashlight⟩ := by
  have hbefore : ∀ q ∈ r.before, q.IsQuiet .doze := fun q hm =>
    hq q (List.mem_append_left _ (List.mem_append_left _ hm))
  have hduring : ∀ q ∈ r.during, q.IsQuiet .doze := fun q hm =>
    hq q (List.mem_append_left _ (List.mem_append_right _ hm))
  have hafter : ∀ q ∈ r.after, q.IsQuiet .doze := fun q hm => hq q (List.mem_append_right _ hm)
  rw [carryOutDoze, carryOut, performAll_quiet .doze hbefore, Outcome.andThen, performAll_quiet .doze hduring] at h
  dsimp only at h
  rw [← performAll, performAll_quiet .doze hafter] at h
  cases h
  have hput : ∀ (d : Doze) (q : Party) (u : World), (putDoze d u).callsOf q = u.callsOf q := fun _ _ _ => rfl
  simp only [sinks, callsOf_noted _ _ (setting?_of_isQuiet hbefore), callsOf_noted _ _ (setting?_of_isQuiet hduring),
    callsOf_noted _ _ (setting?_of_isQuiet hafter), hput, Reaction.calls, List.filterMap_append, if_true,
    reduceCtorEq, if_false, List.append_nil, List.append_assoc]
  rfl

theorem sinks_effect {p : Party} (hp : p.IsMember) {e : Effect} {w v : World}
    (h : w.effect .never p e = .done v) : v.sinks = w.sinks.feel w.screenIsOn w.now e := by
  cases e with
  | ask q => exact sinks_perform hp h
  | fire s =>
    cases s with
    | doze => exact sinks_carryOutDoze (Doze.quiet_fire _ _ _) h
    | flashlight =>
      have hquiet := w.flashlight.quiet_fire
      rw [effect, fire, performAll_quiet .flashlight hquiet] at h
      cases h
      simp only [sinks, callsOf_noted _ _ (setting?_of_isQuiet hquiet), reduceCtorEq, if_false, List.append_nil,
        if_true]
      rfl
    | counter => exact sinks_perform hp (q := .act) h
  | inform s n =>
    cases s with
    | doze =>
      cases n with
      | screen on => exact sinks_carryOutDoze (Doze.quiet_screen _ _ _) h
      | preference q v => cases h; rfl
    | flashlight => cases n <;> cases h <;> rfl
    | counter => cases n <;> cases h <;> rfl

theorem sinks_effects {p : Party} (hp : p.IsMember) {es : List Effect} {w v : World}
    (h : Outcome.each (effect .never p) es w = .done v) :
    v.sinks = es.foldl (Sinks.feel w.screenIsOn w.now) w.sinks := by
  induction es generalizing w with
  | nil => cases h; rfl
  | cons e r ih =>
    obtain ⟨u, hu, hw, _⟩ := effect_never p e w
    have hon : u.screenIsOn = w.screenIsOn := by rw [screenIsOn, hw.screen, screenIsOn]
    have hnow : u.now = w.now := by rw [World.now, hw.clock, World.now]
    rw [Outcome.each, hu] at h
    rw [ih h, hon, hnow, sinks_effect hp hu, List.foldl_cons]

theorem sinks_seat (p : Party) (k : Member) (w : World) : (w.seat p k).sinks = w.sinks := by
  unfold seat
  split <;> rfl

/-- What a party does for the sinks when it is told a message. -/
def effectsOf (m : Message) (w : World) (p : Party) : List Effect :=
  (w.member? p).elim [] fun k => (k.react w.now m).after

theorem sinks_tell {m : Message} {p : Party} {w v : World} (h : w.tell .never m p = .done v) :
    v.sinks = (w.effectsOf m p).foldl (Sinks.feel w.screenIsOn w.now) w.sinks := by
  unfold tell at h
  unfold effectsOf
  cases hk : w.member? p with
  | none =>
    rw [hk] at h
    cases h
    rfl
  | some k =>
    have hp := member?_isMember hk
    obtain ⟨t, ht, hwt, _⟩ := performAll_never p (k.react w.now m).before w
    obtain ⟨u, hu, hwu, _⟩ := performAll_never p (k.react w.now m).during t
    rw [hk] at h
    dsimp only at h
    rw [carryOut, ht, Outcome.andThen, hu] at h
    have hw := hwt.trans hwu
    have hseat := hw.trans (worked_seat p p (k.react w.now m).next u)
    have hon : (u.seat p (k.react w.now m).next).screenIsOn = w.screenIsOn := by
      rw [screenIsOn, hseat.screen, screenIsOn]
    have hnow : (u.seat p (k.react w.now m).next).now = w.now := by rw [World.now, hseat.clock, World.now]
    rw [sinks_effects hp h, hon, hnow, sinks_seat, sinks_performAll hp hu, sinks_performAll hp ht]
    rfl

theorem sinks_each_tell {m : Message} {ps : List Party} (hps : ps.Nodup) {w v : World}
    (h : Outcome.each (tell .never m) ps w = .done v) :
    v.sinks = (ps.flatMap (w.effectsOf m)).foldl (Sinks.feel w.screenIsOn w.now) w.sinks := by
  induction ps generalizing w with
  | nil => cases h; rfl
  | cons p r ih =>
    obtain ⟨hp, hr⟩ := List.nodup_cons.mp hps
    rw [List.flatMap_cons, List.foldl_append]
    cases hk : w.member? p with
    | none =>
      have hstep : w.tell .never m p = .done w := by rw [tell, hk]
      rw [Outcome.each, hstep] at h
      rw [← sinks_tell hstep]
      exact ih hr h
    | some k =>
      obtain ⟨u, hu, hw, hm⟩ := tell_never hk m
      have hon : u.screenIsOn = w.screenIsOn := by rw [screenIsOn, hw.screen, screenIsOn]
      have hnow : u.now = w.now := by rw [World.now, hw.clock, World.now]
      have heffects : r.flatMap (u.effectsOf m) = r.flatMap (w.effectsOf m) := by
        refine List.flatMap_congr fun q hq => ?_
        have hne : q ≠ p := fun e => hp (e ▸ hq)
        rw [effectsOf, hm q, if_neg hne, hnow, effectsOf]
      rw [Outcome.each, hu] at h
      rw [ih hr h, heffects, hon, hnow, sinks_tell hu]

/-- What all that are told of a stimulus do for the sinks. -/
def effects (x : Stimulus) (w : World) : List Effect :=
  x.message?.elim [] fun m => (w.audience x).flatMap (w.effectsOf m)

theorem effects_eq_nil {x : Stimulus} (h : x.message? = none) (w : World) : w.effects x = [] := by
  rw [effects, h]
  rfl

theorem mem_effects {x : Stimulus} {w : World} {e : Effect} (he : e ∈ w.effects x) :
    ∃ m p k, x.message? = some m ∧ p ∈ w.audience x ∧ w.member? p = some k ∧ e ∈ (k.react w.now m).after := by
  unfold effects at he
  cases hm : x.message? with
  | none =>
    rw [hm] at he
    exact absurd he List.not_mem_nil
  | some m =>
    rw [hm] at he
    obtain ⟨p, hp, he⟩ := List.mem_flatMap.mp he
    unfold effectsOf at he
    cases hk : w.member? p with
    | none =>
      rw [hk] at he
      exact absurd he List.not_mem_nil
    | some k =>
      rw [hk] at he
      exact ⟨m, p, k, rfl, hp, hk, he⟩

/-- Where only one party has anything to do with a sink, the others do not matter. -/
theorem filter_flatMap_of_sole {ps : List Party} (hps : ps.Nodup) {f : Party → List Effect} {P : Effect → Bool}
    {q : Party} (h : ∀ p, p ≠ q → (f p).filter P = []) :
    (ps.flatMap f).filter P = if q ∈ ps then (f q).filter P else [] := by
  induction ps with
  | nil => rfl
  | cons p r ih =>
    obtain ⟨hp, hr⟩ := List.nodup_cons.mp hps
    rw [List.flatMap_cons, List.filter_append, ih hr]
    by_cases hq : p = q
    · subst hq
      rw [if_neg hp, if_pos List.mem_cons_self, List.append_nil]
    · have hiff : q ∈ p :: r ↔ q ∈ r := by simp [Ne.symm hq]
      rw [h p hq, List.nil_append]
      simp only [hiff]

/-- The sinks and the screen after a stimulus. -/
theorem sinks_meet {w v : World} (hw : w.Orderly) {x : Stimulus} (h : w.meet .never x = .done v) :
    v.sinks = (w.effects x).foldl (Sinks.feel (w.prepare x).screenIsOn w.now) w.sinks ∧
    v.screen = (w.prepare x).screen := by
  have hsinks : (w.prepare x).sinks = w.sinks := by
    unfold prepare
    split <;> rfl
  rw [meet_eq] at h
  unfold effects
  cases hm : x.message? with
  | none =>
    rw [hm] at h
    cases h
    exact ⟨hsinks, rfl⟩
  | some m =>
    have hmembers : ∀ p, (w.prepare x).effectsOf m p = w.effectsOf m p := by
      intro p
      rw [effectsOf, prepare_now hm, effectsOf]
      unfold prepare
      split <;> cases p <;> rfl
    rw [hm] at h
    dsimp only at h
    obtain ⟨u, hu, ht⟩ := told_each (prepare_orderly hw x).apart m (nodup_audience hw x)
    have he : u = v := by
      rw [hu] at h
      cases h
      rfl
    refine ⟨?_, he ▸ ht.screen⟩
    rw [sinks_each_tell (nodup_audience hw x) h, hsinks, prepare_now hm, funext hmembers]
    rfl

end World

end GestureActions
