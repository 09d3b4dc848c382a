import GestureActions.Proofs.Settings.Overrides
import GestureActions.Settings.ErrorText

/-! # Configurations read back from what was written

A configuration has two written forms: the object of its fields by name, and the array of its
fields in order, in which the last of them may be left out. Both are read as the configuration
that was written, fields left out having their usual values, and both are checked alike.
-/
namespace GestureActions

open Json

namespace Preferences

variable (s : Preferences) (i : Nat)

/-- The switches in the order of the fields. -/
def toList : List Bool := [s.approach, s.silence, s.attentive, s.pickUp, s.flashlight]

/-- The first `i` switches in an array. -/
def tuple : Json := .array ((s.toList.map .bool).take i)

/-- The first `i` switches, and the usual values of the others. -/
def upTo : Preferences :=
  ⟨if 0 < i then s.approach else true, if 1 < i then s.silence else true, if 2 < i then s.attentive else false,
    if 3 < i then s.pickUp else true, if 4 < i then s.flashlight else true⟩

end Preferences

namespace Timings

variable (t : Timings) (i : Nat)

def tuple : Json := .array ((t.toList.map fun d => .ofNat d.toNat).take i)

def upTo : Timings :=
  ⟨if 0 < i then t.silenceDelay else 500, if 1 < i then t.stowWindow else 5000, if 2 < i then t.dimHold else 3000,
    if 3 < i then t.dozeInterval else 1500, if 4 < i then t.vibration else 250⟩

end Timings

namespace Config

variable (c : Config) (i j k : Nat)

def tuple : Json := .array ([c.preferences.tuple i, c.timings.tuple j, .ofString c.mode.name].take k)

def upTo : Config :=
  ⟨if 0 < k then c.preferences.upTo i else .byDefault, if 1 < k then c.timings.upTo j else .byDefault,
    if 2 < k then c.mode else .stateMerge⟩

/-- What is to come of a configuration that was read: itself, unless its window or its dim hold
has no length. If neither has, the window is what is complained of. -/
structure Judged (c : Config) (r : Except ConfigError Config) : Prop where
  accepted : c.timings.stowWindow ≠ 0 → c.timings.dimHold ≠ 0 → r = .ok c
  noWindow : c.timings.stowWindow = 0 → r = .error .stowWindowIsZero
  noDimHold : c.timings.stowWindow ≠ 0 → c.timings.dimHold = 0 → r = .error .dimHoldIsZero

end Config

/-! ## Arrays cut short -/

namespace Json

/-- An array without its last items leaves the last fields out. -/
theorem fields?_take {names : List String} {l : List Json} (h : l.length = names.length) (i : Nat) :
    fields? names (array (l.take i)) = some (l.mapIdx fun k v => if k < i then some v else none) := by
  have htake : (l.take i).length = min i l.length := List.length_take
  have hshown : ((l.take i).map some).length = min i l.length := by rw [List.length_map, htake]
  rw [fields?, if_pos (by omega), Option.some.injEq]
  apply List.ext_getElem
  · rw [List.length_append, List.length_replicate, List.length_mapIdx]
    omega
  · intro k _ hk
    rw [List.length_mapIdx] at hk
    rw [List.getElem_mapIdx]
    by_cases hki : k < i
    · rw [if_pos hki, List.getElem_append_left (by omega), List.getElem_map, List.getElem_take]
    · rw [if_neg hki, List.getElem_append_right (by omega), List.getElem_replicate]

theorem orDefault_ite {α : Type} {read : Json → Option α} {j : Json} {a : α} (h : read j = some a) (usual : α)
    (p : Prop) [Decidable p] : orDefault usual read (if p then some j else none) = some (if p then a else usual) := by
  split
  · exact h
  · rfl

theorem Plain.array_take {l : List Json} (h : ∀ v ∈ l, Plain v) (i : Nat) : Plain (.array (l.take i)) :=
  .array fun v hv => h v (List.mem_of_mem_take hv)

end Json

theorem Preferences.ofJson?_tuple (s : Preferences) (i : Nat) : ofJson? (s.tuple i) = some (s.upTo i) := by
  have hread : ∀ b : Bool, bool? (.bool b) = some b := fun _ => rfl
  rw [ofJson?, tuple, fields?_take (by rfl)]
  simp [toList, orDefault_ite (hread _), upTo, Preference.byDefault]

theorem Timings.ofJson?_tuple (t : Timings) (i : Nat) : ofJson? (t.tuple i) = some (t.upTo i) := by
  have hread : ∀ d : Span, span? (.ofNat d.toNat) = some d := fun _ => Span.read_of_meantBy rfl
  rw [ofJson?, tuple, fields?_take (by rfl)]
  simp [toList, orDefault_ite (hread _), upTo, byDefault]

namespace Config

variable (c : Config)

theorem ofJson?_tuple (i j k : Nat) : ofJson? (c.tuple i j k) = some (c.upTo i j k) := by
  have hmode : AttentiveMode.ofJson? (.ofString c.mode.name) = some c.mode := AttentiveMode.read_of_meantBy (.inl rfl)
  rw [ofJson?, tuple, fields?_take (by rfl)]
  simp [orDefault_ite (c.preferences.ofJson?_tuple i), orDefault_ite (c.timings.ofJson?_tuple j), orDefault_ite hmode,
    upTo, byDefault]

end Config

/-! ## The written object -/

theorem Preferences.toldBy_toJson (s : Preferences) :
    s.ToldBy ((Preference.all.map fun p => (p.key, Json.bool (s.get p))).map fun m => (glyphs m.1, m.2)) := by
  refine ⟨named_map_glyphs _, fun p => .present (j := .bool (s.get p)) ?_ rfl⟩
  rw [values_glyphs]
  cases p <;> simp [Preference.all, Preference.key]

theorem Timings.toldBy_toJson (t : Timings) :
    t.ToldBy ((fieldNames.zip (t.toList.map fun d => Json.ofNat d.toNat)).map fun m => (glyphs m.1, m.2)) := by
  refine ⟨named_map_glyphs _, .present ?_ rfl, .present ?_ rfl, .present ?_ rfl, .present ?_ rfl, .present ?_ rfl⟩ <;>
    rw [values_glyphs] <;> simp [fieldNames, toList]

namespace Config

variable (c : Config)

theorem toldBy_toJson : c.ToldBy ([("preferences", c.preferences.toJson), ("timings", c.timings.toJson),
    ("attentive_mode", c.mode.toJson)].map fun m => (glyphs m.1, m.2)) := by
  refine ⟨named_map_glyphs _, .present (j := c.preferences.toJson) ?_ ⟨_, rfl, c.preferences.toldBy_toJson⟩,
    .present (j := c.timings.toJson) ?_ ⟨_, rfl, c.timings.toldBy_toJson⟩,
    .present (j := c.mode.toJson) ?_ (.inl rfl)⟩ <;> rw [values_glyphs] <;> simp

theorem ofJson?_toJson : ofJson? c.toJson = some c := c.toldBy_toJson.ofJson?_eq

/-! ## Texts -/

theorem plain_toJson : Plain c.toJson := by
  have hp : Plain c.preferences.toJson := .record (List.forall_mem_map.mpr fun p _ => .bool (c.preferences.get p))
  have ht : Plain c.timings.toJson := by
    refine .record fun m hm => ?_
    obtain ⟨d, _, hd⟩ := List.mem_map.mp (List.of_mem_zip hm).2
    rw [← hd]
    exact .nat d.toNat
  refine .record (List.forall_mem_cons.mpr ⟨hp, List.forall_mem_cons.mpr ⟨ht, List.forall_mem_singleton.mpr ?_⟩⟩)
  exact .text c.mode.name

theorem plain_tuple (i j k : Nat) : Plain (c.tuple i j k) := by
  have hp : Plain (c.preferences.tuple i) := .array_take (List.forall_mem_map.mpr fun b _ => .bool b) i
  have ht : Plain (c.timings.tuple j) := .array_take (List.forall_mem_map.mpr fun (d : Span) _ => .nat d.toNat) j
  refine .array_take (List.forall_mem_cons.mpr ⟨hp, List.forall_mem_cons.mpr ⟨ht, List.forall_mem_singleton.mpr ?_⟩⟩) k
  exact .text c.mode.name

theorem judged_check : c.Judged c.check := by
  refine ⟨fun hw hd => ?_, fun hw => ?_, fun hw hd => ?_⟩
  · rw [check, if_neg hw, if_neg hd]
  · rw [check, if_pos hw]
  · rw [check, if_neg hw, if_pos hd]

/-- A written value that is read as a configuration has it judged. -/
theorem judged_ofText {v : Json} (hv : Plain v) (h : ofJson? v = some c) : c.Judged (ofText v.text) := by
  have hread : ofText? v.text = some c := by
    rw [ofText?, read_of_spells (spells_text hv), Option.bind_some, h]
  rw [ofText, hread]
  exact c.judged_check

/-- The text of the object of all fields, and that of the array of their values, is read as the
configuration it was written for. Of arrays cut short, each field that is left out has its
usual value. In all of them a window or a dim hold of no length is refused by its name. -/
theorem ofText_written :
    c.toJson = .record [
      ("preferences", .record [("gesture_ir", .bool c.preferences.approach),
        ("gesture_ir_silence", .bool c.preferences.silence),
        ("gesture_attentive_display", .bool c.preferences.attentive), ("pick_up", .bool c.preferences.pickUp),
        ("gesture_flashlight", .bool c.preferences.flashlight)]),
      ("timings", .record [("silence_delay_ms", .ofNat c.timings.silenceDelay.toNat),
        ("stow_window_ms", .ofNat c.timings.stowWindow.toNat), ("dim_hold_ms", .ofNat c.timings.dimHold.toNat),
        ("doze_pulse_interval_ms", .ofNat c.timings.dozeInterval.toNat),
        ("flashlight_vibrate_ms", .ofNat c.timings.vibration.toNat)]),
      ("attentive_mode", .ofString c.mode.name)] ∧
    c.Judged (ofText c.toJson.text) ∧
    (∀ i j k, (c.upTo i j k).Judged (ofText (c.tuple i j k).text)) ∧
    c.Judged (ofText (c.tuple 5 5 3).text) ∧
    ConfigError.message? .stowWindowIsZero = some "invalid config: stow_window_ms must be greater than zero" ∧
    ConfigError.message? .dimHoldIsZero = some "invalid config: dim_hold_ms must be greater than zero" := by
  have htuple : ∀ i j k, (c.upTo i j k).Judged (ofText (c.tuple i j k).text) := fun i j k =>
    judged_ofText _ (c.plain_tuple i j k) (c.ofJson?_tuple i j k)
  refine ⟨rfl, judged_ofText c c.plain_toJson c.ofJson?_toJson, htuple, ?_, ?_, ?_⟩
  · exact htuple 5 5 3
  · decide
  · decide

end Config

end GestureActions
