import GestureActions.Proofs.Observer.Heeding
import GestureActions.Proofs.Service.Serving
import GestureActions.Proofs.System.Moments

/-! # Features kept apart

Each kind of output of the service goes by some of the stimuli only. Leaving the others out
of a history leaves that output as it is, call by call, although the features share the
sensors, the detector, the broadcasts and the doze sink.
-/
namespace GestureActions

open Request

inductive Feature
  | torch | ringer | snooze | power | pulse
  deriving DecidableEq, Repr

namespace Feature

/-- The calls that are the output of a feature. -/
def owns : Feature → Call → Bool
  | torch, .output .torch | torch, .output (.vibrate _) => true
  | ringer, .output .silence => true
  | snooze, .output (.broadcast a) => a = AlarmAction.snooze.action
  | power, .power _ => true
  | pulse, .output (.broadcast a) => a = dozePulse
  | _, _ => false

/-- What a feature has put out, oldest first. -/
def trace (f : Feature) (l : Log) : List Call := (l.map (·.call)).filter f.owns

def switches : Feature → List Preference
  | torch => [.flashlight]
  | ringer | snooze => [.silence]
  | power => [.attentive]
  | pulse => [.pickUp, .approach]

def sensors : Feature → List Sensor
  | torch => [.chopChop]
  | ringer | snooze => [.irGesture]
  | power => [.irGesture, .stow]
  | pulse => [.flatUp, .stow, .irGesture]

/-- Whether a stimulus matters to a feature. -/
def concerns : Feature → Stimulus → Bool
  | f, .event .screenOn | f, .event .screenOff => f = power || f = pulse
  | f, .event (.alarm _) => f = snooze
  | f, .event (.callState _) => f = ringer
  | f, .event (.preference k _) => f.switches.any (·.key = k)
  | f, .emission r | f, .delivery r _ => r.sensor ∈ f.sensors
  | f, .clock _ => f ≠ torch

/-- The party that speaks for a feature. -/
def speaker : Feature → Party
  | torch => .flashlight
  | ringer => .call
  | snooze => .alarm
  | power => Service.display
  | pulse => .doze

/-- The members that a feature goes by. -/
def parties : Feature → List Party
  | torch => []
  | ringer => [.call]
  | snooze => [.alarm]
  | power => [Service.display]
  | pulse => [.observer 2, .observer 3, .observer 4]

/-- A role that heeds no more than what matters to a feature. -/
structure Includes (f : Feature) (ρ : Role) : Prop where
  screen : ∀ on, ρ.heeds (.notice (.screen on)) = true → f = power ∨ f = pulse
  preference : ∀ q v, ρ.heeds (.notice (.preference q v)) = true → q ∈ f.switches
  ringing : ∀ on, ρ.heeds (.ringing on) = true → f = snooze
  line : ∀ l, ρ.heeds (.line l) = true → f = ringer
  reading : ∀ r, ρ.heeds (.reading r) = true → r.sensor ∈ f.sensors

theorem includes_of_mem {f : Feature} {p : Party} (hp : p ∈ f.parties) {c : Config} {ρ : Role}
    (hρ : Service.cast c p = some ρ) : f.Includes ρ := by
  have hcases : f = ringer ∧ p = .call ∨ f = snooze ∧ p = .alarm ∨ f = power ∧ p = Service.display ∨
      f = pulse ∧ (p = .observer 2 ∨ p = .observer 3 ∨ p = .observer 4) := by
    cases f <;> simp_all [parties]
  rcases hcases with ⟨rfl, rfl⟩ | ⟨rfl, rfl⟩ | ⟨rfl, rfl⟩ | ⟨rfl, rfl | rfl | rfl⟩ <;> cases hρ <;>
    constructor <;> grind [Role.heeds, Role.switch?, Role.sensors, switches, sensors]

theorem not_heeds_of_not_concerns {f : Feature} {ρ : Role} (h : f.Includes ρ) {x : Stimulus}
    (hx : f.concerns x = false) {m : Message} (hm : x.message? = some m) : ρ.heeds m = false := by
  rw [← Bool.not_eq_true]
  intro hheeds
  rw [← Bool.not_eq_true] at hx
  apply hx
  cases x with
  | event e =>
    cases e with
    | screenOn =>
      cases hm
      simpa [concerns] using h.screen true hheeds
    | screenOff =>
      cases hm
      simpa [concerns] using h.screen false hheeds
    | alarm a =>
      obtain ⟨b, _, rfl⟩ := Option.map_eq_some_iff.mp hm
      exact decide_eq_true (h.ringing _ hheeds)
    | callState l =>
      cases hm
      exact decide_eq_true (h.line l hheeds)
    | preference k v =>
      obtain ⟨q, hq, rfl⟩ := Option.map_eq_some_iff.mp hm
      refine List.any_eq_true.mpr ⟨q, h.preference q v hheeds, ?_⟩
      exact decide_eq_true (Preference.ofKey?_eq_some.mp hq).symm
  | emission r =>
    cases hm
    exact decide_eq_true (h.reading r hheeds)
  | delivery r p =>
    cases hm
    exact decide_eq_true (h.reading r hheeds)
  | clock t => cases hm

end Feature

/-- Whether a stimulus is meant for a party, be it for all or for that one alone. -/
def Stimulus.isFor (p : Party) : Stimulus → Bool
  | delivery _ q => q = p
  | _ => true

namespace Standing

variable {own : Call → Bool}

/-- What there is to see of a standing, of the calls only some. -/
def glimpse (own : Call → Bool) (s : Standing) : Member × (Sensor → Bool) × List Call :=
  (s.member, s.hears, s.calls.filter own)

/-- What there is to see afterwards goes by what there was to see before. -/
theorem glimpse_met {s s' : Standing} (h : s.glimpse own = s'.glimpse own) (now : Instant) (p : Party) (x : Stimulus) :
    (s.met now p x).glimpse own = (s'.met now p x).glimpse own := by
  obtain ⟨k, b, v, l⟩ := s
  obtain ⟨k', b', v', l'⟩ := s'
  obtain ⟨hk, h⟩ := Prod.mk.inj h
  obtain ⟨hb, hl⟩ := Prod.mk.inj h
  dsimp only at hk hb hl
  subst hk hb
  have htold : ∀ m, ((Standing.mk k b v l).told now m).glimpse own = ((Standing.mk k b v' l').told now m).glimpse own := by
    intro m
    simp only [glimpse, told, List.filter_append, hl]
  unfold met
  cases x.message? with
  | none => exact congrArg (fun l => (k, b, l)) hl
  | some m =>
    dsimp only
    have hreceives : (Standing.mk k b v l).receives p x = (Standing.mk k b v' l').receives p x := by cases x <;> rfl
    rw [hreceives]
    split
    · exact htold m
    · exact congrArg (fun l => (k, b, l)) hl

/-- Nothing is to be seen of an answer that passes the message over. -/
theorem glimpse_told_of_passes {s : Standing} {now : Instant} {m : Message}
    (h : (s.member.react now m).Passes s.member) (hown : own .readClock = false) :
    (s.told now m).glimpse own = s.glimpse own := by
  have hrequests : ∀ q ∈ (s.member.react now m).requests, q = .readClock := by
    intro q hq
    rw [Reaction.requests, h.during, h.after, List.append_nil, List.flatMap_nil, List.append_nil] at hq
    exact h.before q hq
  have hcalls : ((s.member.react now m).requests.filterMap Request.call?).filter own = [] := by
    refine List.filter_eq_nil_iff.mpr fun c hc => ?_
    obtain ⟨q, hq, he⟩ := List.mem_filterMap.mp hc
    rw [hrequests q hq] at he
    cases he
    rw [hown]
    exact Bool.false_ne_true
  simp only [glimpse, told, h.next, hears_of_readClock hrequests, List.filter_append, hcalls, List.append_nil]

end Standing

namespace World

variable {c : Config} {g g' : Signals} {w w' v v' : World} {x : Stimulus} {f : Feature}

def glimpse (own : Call → Bool) (p : Party) (w : World) : Option (Member × (Sensor → Bool) × List Call) :=
  (w.standing p).map (·.glimpse own)

/-- Two worlds between which a feature makes no difference. -/
structure Alike (f : Feature) (w v : World) : Prop where
  now : f ≠ .torch → v.now = w.now
  glimpse : ∀ p ∈ f.parties, v.glimpse f.owns p = w.glimpse f.owns p
  doze : f = .pulse → v.screen = w.screen ∧ v.sinks.doze = w.sinks.doze
  flashlight : f = .torch → v.sinks.flashlight = w.sinks.flashlight

theorem glimpse_met (hm : Met x w v) (own : Call → Bool) (p : Party) :
    v.glimpse own p = (w.standing p).map fun s => (s.met w.now p x).glimpse own := by
  rw [glimpse, hm.standing, Option.map_map]
  rfl

theorem now_met (hm : Met x w v) : v.now = (w.prepare x).now := by
  rw [World.now, hm.clock, World.now]

/-- What does not matter to a feature is not to be seen of its members. -/
theorem Serves.glimpse_met (h : w.Serves c g) (hm : Met x w v) (hx : f.concerns x = false) {p : Party}
    (hp : p ∈ f.parties) : v.glimpse f.owns p = w.glimpse f.owns p := by
  rw [World.glimpse_met hm, glimpse]
  cases hs : w.standing p with
  | none => rfl
  | some s =>
    have hcast : Service.cast c p = some s.member.role := by rw [← h.cast p, roleOf, hs, Option.map_some]
    refine congrArg some ?_
    unfold Standing.met
    cases hmessage : x.message? with
    | none => rfl
    | some m =>
      dsimp only
      split
      · have hheeds := Feature.not_heeds_of_not_concerns (Feature.includes_of_mem hp hcast) hx hmessage
        refine Standing.glimpse_told_of_passes (s.member.passes_of_not_heeds hheeds w.now) ?_
        cases f <;> rfl
      · rfl

theorem Alike.refl (f : Feature) (w : World) : Alike f w w := ⟨fun _ => rfl, fun _ _ => rfl, fun _ => ⟨rfl, rfl⟩, fun _ => rfl⟩

/-- A world that is like another one is so as well once that one has made no difference. -/
theorem Alike.left (h : Alike f w v) (k : Alike f w w') : Alike f w' v where
  now hf := (h.now hf).trans (k.now hf).symm
  glimpse p hp := (h.glimpse p hp).trans (k.glimpse p hp).symm
  doze hf := ⟨(h.doze hf).1.trans (k.doze hf).1.symm, (h.doze hf).2.trans (k.doze hf).2.symm⟩
  flashlight hf := (h.flashlight hf).trans (k.flashlight hf).symm

theorem prepare_screen_congr (h : v.screen = w.screen) (x : Stimulus) : (v.prepare x).screen = (w.prepare x).screen := by
  cases x with
  | event e =>
    cases e with
    | screenOn => rfl
    | screenOff => rfl
    | _ => exact h
  | _ => exact h

/-- What the flashlight sink gets to feel of a stimulus, whatever else is going on. -/
def torchward (x : Stimulus) : List Effect :=
  match x.message? with
  | some (.notice (.preference q b)) => [.inform .flashlight (.preference q b)]
  | some (.reading r) => if r.sensor = .chopChop ∧ x.isFor (.observer 1) then [.fire .flashlight] else []
  | _ => []

theorem Serves.flashlight_reading (h : w.Serves c g) {r : Reading} (hm : x.message? = some (.reading r)) :
    (w.effects x).filter (·.sink? = some .flashlight) =
      if r.sensor = .chopChop ∧ .observer 1 ∈ w.audience x then [.fire .flashlight] else [] := by
  rw [h.filter_effects hm, Service.source?]
  by_cases hr : r.sensor = .chopChop
  · have heffects : w.effectsOf (.reading r) (.observer 1) = [.fire .flashlight] := by
      rw [effectsOf, h.member_flashlight, Option.elim_some, Member.react, Observer.hear]
      simp only [hr, if_true]
      rfl
    rw [if_pos hr, Option.elim_some, heffects]
    simp only [hr, true_and]
    rfl
  · rw [if_neg hr, Option.elim_none, if_neg fun h => hr h.1]

theorem Serves.filter_flashlight (h : w.Serves c g) (x : Stimulus) :
    (w.effects x).filter (·.sink? = some .flashlight) = torchward x := by
  unfold torchward
  cases hm : x.message? with
  | none =>
    rw [effects_eq_nil hm]
    rfl
  | some m =>
    cases m with
    | notice n =>
      cases n with
      | screen on => rw [h.filter_effects hm]; rfl
      | preference q b =>
        exact h.flashlight_preference hm (h.orderly.mem_audience hm (h.isSome_standing (p := .observer 1) rfl))
    | reading r =>
      have haudience : r.sensor = .chopChop → (.observer 1 ∈ w.audience x ↔ x.isFor (.observer 1) = true) := by
        intro hr
        rcases Stimulus.eq_of_reading hm with rfl | ⟨p, rfl⟩
        · have hears := h.hears_eq h.member_flashlight .chopChop
          rw [audience, hearers, Registry.mem_listeners, hr]
          exact ⟨fun _ => rfl, fun _ => of_decide_eq_true hears⟩
        · simp [audience, Stimulus.isFor, eq_comm]
      have hiff := and_congr_right haudience
      rw [h.flashlight_reading hm]
      simp only [hiff]
    | ringing on => rw [h.filter_effects hm]; rfl
    | line l => rw [h.filter_effects hm]; rfl

theorem Serves.flashlight_eq (h : w.Serves c g) (hw : w.meet .never x = .done w') :
    w'.sinks.flashlight = (torchward x).foldl Flashlight.feel w.sinks.flashlight := by
  have hsinks := (sinks_meet h.orderly hw).1
  rw [Sinks.foldl_feel] at hsinks
  rw [hsinks]
  dsimp only
  rw [Flashlight.foldl_feel, h.filter_flashlight]

theorem torchward_of_not_concerns (hx : Feature.concerns .torch x = false) (s : Flashlight × List Call) :
    (torchward x).foldl Flashlight.feel s = s := by
  unfold torchward
  split
  · rename_i q b hm
    rcases Stimulus.eq_of_notice hm with ⟨on, hn, _⟩ | ⟨q', b', hn, rfl⟩
    · cases hn
    · cases hn
      have hq : q ≠ .flashlight := by
        rintro rfl
        cases hx
      simp only [List.foldl_cons, List.foldl_nil, Flashlight.feel, Flashlight.prefer, if_neg hq]
  · rename_i r hm
    have hr : r.sensor ∉ Feature.sensors .torch := by
      rcases Stimulus.eq_of_reading hm with rfl | ⟨p, rfl⟩ <;> exact of_decide_eq_false hx
    rw [if_neg fun h => hr (List.mem_singleton.mpr h.1)]
    rfl
  · rfl

theorem Serves.doze_eq (h : w.Serves c g) (hw : w.meet .never x = .done w') :
    w'.sinks.doze = ((w.effects x).filter (·.sink? = some .doze)).foldl
      (Doze.feel (w.prepare x).screenIsOn w.now) w.sinks.doze := by
  have hsinks := (sinks_meet h.orderly hw).1
  rw [Sinks.foldl_feel] at hsinks
  rw [hsinks]
  exact Doze.foldl_feel ..

theorem source?_doze_reading {r : Reading} {q : Party} (h : Service.source? .doze (.reading r) = some q) :
    q ∈ Feature.parties .pulse := by
  unfold Service.source? at h
  dsimp only at h
  split at h <;> first | (cases h; decide) | cases h

/-- Who may fire the doze sink fires it in both of two worlds or in neither. -/
theorem Alike.effectsOf (ha : Alike .pulse w v) {q : Party} (hq : q ∈ Feature.parties .pulse) (m : Message) :
    v.effectsOf m q = w.effectsOf m q := by
  have hnow : v.now = w.now := ha.now (by decide)
  have hmember : v.member? q = w.member? q := by
    have hglimpse := congrArg (Option.map Prod.fst) (ha.glimpse q hq)
    have hfst : ∀ u : World, (u.glimpse (Feature.owns .pulse) q).map Prod.fst = u.member? q := by
      intro u
      rw [World.glimpse, standing, Option.map_map, Option.map_map]
      exact Option.map_id'
    rwa [hfst, hfst] at hglimpse
  rw [World.effectsOf, hmember, hnow, World.effectsOf]

theorem Alike.hears (ha : Alike .pulse w v) {q : Party} (hq : q ∈ Feature.parties .pulse) (hs : (w.standing q).isSome)
    (t : Sensor) : v.hears q t = w.hears q t := by
  obtain ⟨s, hs⟩ := Option.isSome_iff_exists.mp hs
  have hglimpse := ha.glimpse q hq
  rw [World.glimpse, World.glimpse, hs] at hglimpse
  obtain ⟨s', hs', he⟩ := Option.map_eq_some_iff.mp hglimpse
  obtain ⟨k, _, rfl⟩ := Option.map_eq_some_iff.mp hs
  obtain ⟨k', _, rfl⟩ := Option.map_eq_some_iff.mp hs'
  exact congrFun (congrArg (·.2.1) he) t

theorem Serves.filter_doze_congr (h : w.Serves c g) (h' : v.Serves c g') (ha : Alike .pulse w v) (x : Stimulus) :
    (v.effects x).filter (·.sink? = some .doze) = (w.effects x).filter (·.sink? = some .doze) := by
  cases hm : x.message? with
  | none => rw [effects_eq_nil hm, effects_eq_nil hm]
  | some m =>
    cases m with
    | notice n =>
      have hobserver : ∀ {u : World} {g : Signals}, u.Serves c g → .observer 0 ∈ u.audience x := fun hu =>
        hu.orderly.mem_audience hm (hu.isSome_standing (p := .observer 0) rfl)
      rw [h.doze_notice hm (hobserver h), h'.doze_notice hm (hobserver h')]
    | reading r =>
      rw [h.filter_effects hm, h'.filter_effects hm]
      cases hq : Service.source? .doze (.reading r) with
      | none => rfl
      | some q =>
        have hmem := source?_doze_reading hq
        have hsome : (w.standing q).isSome := by
          simp only [Feature.parties, List.mem_cons, List.not_mem_nil, or_false] at hmem
          rcases hmem with rfl | rfl | rfl <;> exact h.isSome_standing rfl
        have haudience : q ∈ v.audience x ↔ q ∈ w.audience x := by
          rcases Stimulus.eq_of_reading hm with rfl | ⟨p, rfl⟩
          · simp only [audience, hearers, Registry.mem_listeners]
            exact decide_eq_decide.mp (ha.hears hmem hsome r.sensor)
          · exact Iff.rfl
        simp only [Option.elim_some, haudience, ha.effectsOf hmem]
    | ringing on => rw [h.filter_effects hm, h'.filter_effects hm]; rfl
    | line l => rw [h.filter_effects hm, h'.filter_effects hm]; rfl

theorem Serves.foldl_doze_of_not_concerns (h : w.Serves c g) (hx : Feature.concerns .pulse x = false) (on : Bool)
    (now : Instant) (d : Doze × List Call) :
    ((w.effects x).filter (·.sink? = some .doze)).foldl (Doze.feel on now) d = d := by
  cases hm : x.message? with
  | none =>
    rw [effects_eq_nil hm]
    rfl
  | some m =>
    cases m with
    | notice n =>
      have hobserver := h.orderly.mem_audience hm (h.isSome_standing (p := .observer 0) rfl)
      rw [h.doze_notice hm hobserver]
      rcases Stimulus.eq_of_notice hm with ⟨seen, _, rfl⟩ | ⟨q, b, rfl, _⟩
      · cases seen <;> cases hx
      · rfl
    | reading r =>
      have hr : r.sensor ∉ Feature.sensors .pulse := by
        rcases Stimulus.eq_of_reading hm with rfl | ⟨p, rfl⟩ <;> exact of_decide_eq_false hx
      have hnone : Service.source? .doze (.reading r) = none := by
        unfold Service.source?
        cases hs : r.sensor <;> simp_all [Feature.sensors]
      rw [h.filter_effects hm, hnone]
      rfl
    | ringing b => rw [h.filter_effects hm]; rfl
    | line l => rw [h.filter_effects hm]; rfl

/-- A stimulus leaves two worlds as alike as they were. -/
theorem Alike.meet (ha : Alike f w v) (h : w.Serves c g) (h' : v.Serves c g')
    (hw : w.meet .never x = .done w') (hm : Met x w w') (hv : v.meet .never x = .done v') (hm' : Met x v v') :
    Alike f w' v' where
  now hf := by
    rw [now_met hm, now_met hm']
    exact prepare_now_congr (ha.now hf) x
  glimpse p hp := by
    have hf : f ≠ .torch := by
      rintro rfl
      exact absurd hp List.not_mem_nil
    have hglimpse := ha.glimpse p hp
    rw [World.glimpse, World.glimpse] at hglimpse
    rw [World.glimpse_met hm, World.glimpse_met hm', ha.now hf]
    cases hs : w.standing p with
    | none =>
      rw [hs] at hglimpse
      rw [Option.map_eq_none_iff.mp hglimpse]
    | some s =>
      rw [hs] at hglimpse
      obtain ⟨s', hs', he⟩ := Option.map_eq_some_iff.mp hglimpse
      rw [hs']
      exact congrArg some (Standing.glimpse_met he w.now p x)
  doze hf := by
    subst hf
    obtain ⟨hscreen, hdoze⟩ := ha.doze rfl
    have hprepare := prepare_screen_congr hscreen x
    have hnow : v.now = w.now := ha.now (by decide)
    refine ⟨?_, ?_⟩
    · rw [(sinks_meet h'.orderly hv).2, (sinks_meet h.orderly hw).2, hprepare]
    · rw [h.doze_eq hw, h'.doze_eq hv, h.filter_doze_congr h' ha x, hdoze, hnow, screenIsOn, hprepare, screenIsOn]
  flashlight hf := by
    rw [h.flashlight_eq hw, h'.flashlight_eq hv, ha.flashlight hf]

/-- A stimulus that does not matter to a feature makes no difference to it. -/
theorem Serves.alike_of_not_concerns (h : w.Serves c g) (hx : f.concerns x = false)
    (hw : w.meet .never x = .done w') (hm : Met x w w') : Alike f w w' where
  now hf := by
    rw [now_met hm]
    cases x with
    | event e => cases e <;> rfl
    | clock t => exact absurd (of_decide_eq_false hx) (not_not_intro hf)
    | _ => rfl
  glimpse p hp := h.glimpse_met hm hx hp
  doze hf := by
    subst hf
    refine ⟨?_, by rw [h.doze_eq hw, h.foldl_doze_of_not_concerns hx]⟩
    rw [(sinks_meet h.orderly hw).2]
    cases x with
    | event e =>
      cases e with
      | screenOn => cases hx
      | screenOff => cases hx
      | _ => rfl
    | _ => rfl
  flashlight hf := by
    subst hf
    rw [h.flashlight_eq hw, torchward_of_not_concerns hx]

theorem eq_speaker_of_voice {p : Party} {o : Output} (hp : p.Says o) (ho : f.owns (.output o) = true) :
    p = f.speaker := by
  cases p with
  | observer i => exact hp.elim
  | alarm =>
    cases hp
    cases f <;> first | rfl | exact absurd ho (by decide)
  | call =>
    cases hp
    cases f <;> first | rfl | cases ho
  | doze =>
    cases hp
    cases f <;> first | rfl | exact absurd ho (by decide)
  | flashlight => rcases hp with rfl | ⟨d, rfl⟩ <;> cases f <;> first | rfl | cases ho

/-- The output of a feature is all by its speaker. -/
theorem Serves.party_of_owns (h : w.Serves c g) {e : Entry} (he : e ∈ w.log) (ho : f.owns e.call = true) :
    e.party = f.speaker := by
  cases hc : e.call with
  | output o =>
    rw [hc] at ho
    exact eq_speaker_of_voice ((h.proper e he).voice hc) ho
  | power x =>
    rw [hc] at ho
    have hpower : f = .power := by cases f <;> first | rfl | cases ho
    rw [hpower]
    refine h.drawer e he ?_
    rw [hc]
    exact Option.some_ne_none x
  | _ =>
    rw [hc] at ho
    cases f <;> cases ho

theorem Serves.trace_eq (h : w.Serves c g) (f : Feature) : f.trace w.log = (w.callsOf f.speaker).filter f.owns := by
  rw [Feature.trace, callsOf, Log.callsOf, List.filter_filter, List.filter_map, List.filter_map, List.filter_filter]
  refine congrArg (List.map _) (List.filter_congr fun e he => ?_)
  simp only [Function.comp_apply]
  cases ho : f.owns e.call with
  | false => rfl
  | true =>
    have hsetting : e.call.setting? = none := by
      cases hc : e.call with
      | configure s =>
        rw [hc] at ho
        cases f <;> cases ho
      | _ => rfl
    rw [h.party_of_owns he ho, hsetting]
    simp

theorem glimpse_eq {p : Party} {k : Member} (hk : w.member? p = some k) (own : Call → Bool) :
    w.glimpse own p = some (k, fun t => w.hears p t, (w.callsOf p).filter own) := by
  rw [glimpse, standing_eq hk, Option.map_some]
  rfl

theorem Alike.trace (ha : Alike f w v) (h : w.Serves c g) (h' : v.Serves c g') : f.trace v.log = f.trace w.log := by
  rw [h.trace_eq, h'.trace_eq]
  have hmember : ∀ {p : Party} {ρ : Role}, p ∈ f.parties → Service.cast c p = some ρ →
      (v.callsOf p).filter f.owns = (w.callsOf p).filter f.owns := by
    intro p ρ hp hρ
    obtain ⟨k, hk, _⟩ := h.member hρ
    obtain ⟨k', hk', _⟩ := h'.member hρ
    have hglimpse := ha.glimpse p hp
    rw [glimpse_eq hk, glimpse_eq hk'] at hglimpse
    exact congrArg (·.2.2) (Option.some.inj hglimpse)
  cases f with
  | torch => exact congrArg (fun s => s.2.filter (Feature.owns .torch)) (ha.flashlight rfl)
  | pulse => exact congrArg (fun s => s.2.filter (Feature.owns .pulse)) (ha.doze rfl).2
  | ringer => exact hmember List.mem_cons_self rfl
  | snooze => exact hmember List.mem_cons_self rfl
  | power => exact hmember List.mem_cons_self rfl

/-- A history and what of it matters to a feature lead to worlds that are alike to it. -/
theorem Serves.run_concerns (h : w.Serves c g) (f : Feature) (l : List Stimulus) :
    ∃ u v, w.run .never l = .done u ∧ w.run .never (l.filter f.concerns) = .done v ∧
      u.Serves c (g.after l) ∧ v.Serves c (g.after (l.filter f.concerns)) ∧ Alike f u v := by
  induction l using List.reverseRecOn with
  | nil => exact ⟨w, w, rfl, rfl, h, h, Alike.refl f w⟩
  | append_singleton l x ih =>
    obtain ⟨u, v, hu, hv, hsu, hsv, ha⟩ := ih
    obtain ⟨u', hu', hm, hsu'⟩ := hsu.meet x
    have hlast : (l ++ [x]).filter f.concerns = l.filter f.concerns ++ if f.concerns x then [x] else [] := by
      rw [List.filter_append, List.filter_singleton]
      cases f.concerns x <;> rfl
    rw [hlast]
    cases hx : f.concerns x with
    | true =>
      obtain ⟨v', hv', hm', hsv'⟩ := hsv.meet x
      refine ⟨u', v', run_snoc hu hu', run_snoc hv hv', ?_, ?_, ha.meet hsu hsv hu' hm hv' hm'⟩
      · rwa [Signals.after_snoc]
      · rwa [if_pos rfl, Signals.after_snoc]
    | false =>
      rw [if_neg Bool.false_ne_true, List.append_nil]
      refine ⟨u', v, run_snoc hu hu', hv, ?_, hsv, ha.left (hsu.alike_of_not_concerns hx hu' hm)⟩
      rwa [Signals.after_snoc]

end World

namespace Service

/-- A valid configuration starts the service, and leaving out of any history of stimuli
what does not matter to a feature leaves the output of the feature as it is. -/
theorem run_isolated {c : Config} (hc : c.check = .ok c) (store : PreferenceStore) (interactive : Bool) (now : Instant) :
    ∃ s, start c store interactive now = .ok s ∧ ∀ (f : Feature) (h : List Stimulus),
      ∃ w v, s.world.run .never h = .done w ∧ s.world.run .never (h.filter f.concerns) = .done v ∧
        f.trace v.log = f.trace w.log := by
  obtain ⟨u, hs, _, hserves⟩ := start_serves hc store interactive now
  refine ⟨_, hs, fun f h => ?_⟩
  obtain ⟨w, v, hw, hv, hsw, hsv, ha⟩ := hserves.run_concerns f h
  exact ⟨w, v, hw, hv, ha.trace hsw hsv⟩

theorem run_isolated_byDefault : Config.byDefault.check = .ok Config.byDefault ∧
    ∃ s, start .byDefault [] false 0 = .ok s ∧ ∀ (f : Feature) (h : List Stimulus),
      ∃ w v, s.world.run .never h = .done w ∧ s.world.run .never (h.filter f.concerns) = .done v ∧
        f.trace v.log = f.trace w.log :=
  ⟨rfl, run_isolated rfl [] false 0⟩

end Service

end GestureActions
