import GestureActions.Proofs.Json.Printing
import GestureActions.Proofs.Json.Records
import GestureActions.Settings.ConfigText

/-! # Configurations by what their texts say

The text of a configuration says something of some of its fields. Those it does not speak of
have their usual values, and neither the order of the members nor members of other names
have any bearing on the outcome. What comes of a text is checked, so that no configuration
without a window or without a dim hold is ever read.
-/
namespace GestureActions

open Json

/-- A span written as a whole number. -/
def Span.MeantBy (j : Json) (d : Span) : Prop := j = .ofNat d.toNat

/-- A mode written as its name, or as an object with that name and nothing under it. -/
def AttentiveMode.MeantBy (j : Json) (m : AttentiveMode) : Prop :=
  j = .ofString m.name ∨ j = .object [(glyphs m.name, .null)]

/-- An object that says of each switch what it is, or nothing if it is as usual. -/
structure Preferences.ToldBy (l : List (List Glyph × Json)) (s : Preferences) : Prop where
  named : Named l
  told : ∀ p : Preference, Told l p.key p.byDefault (fun j v => j = .bool v) (s.get p)

structure Timings.ToldBy (l : List (List Glyph × Json)) (t : Timings) : Prop where
  named : Named l
  silenceDelay : Told l "silence_delay_ms" 500 Span.MeantBy t.silenceDelay
  stowWindow : Told l "stow_window_ms" 5000 Span.MeantBy t.stowWindow
  dimHold : Told l "dim_hold_ms" 3000 Span.MeantBy t.dimHold
  dozeInterval : Told l "doze_pulse_interval_ms" 1500 Span.MeantBy t.dozeInterval
  vibration : Told l "flashlight_vibrate_ms" 250 Span.MeantBy t.vibration

structure Config.ToldBy (l : List (List Glyph × Json)) (c : Config) : Prop where
  named : Named l
  preferences : Told l "preferences" .byDefault (fun j s => ∃ m, j = .object m ∧ s.ToldBy m) c.preferences
  timings : Told l "timings" .byDefault (fun j t => ∃ m, j = .object m ∧ t.ToldBy m) c.timings
  mode : Told l "attentive_mode" .stateMerge AttentiveMode.MeantBy c.mode

/-- Two objects that stand for the same configuration, whatever else they hold. -/
structure Config.SameText (l k : List (List Glyph × Json)) : Prop where
  left : Named l
  right : Named k
  preferences : List.Forall₂ (SameFields Preferences.fieldNames) (values l "preferences") (values k "preferences")
  timings : List.Forall₂ (SameFields Timings.fieldNames) (values l "timings") (values k "timings")
  mode : values l "attentive_mode" = values k "attentive_mode"

theorem Span.read_of_meantBy {j : Json} {d : Span} (h : MeantBy j d) : span? j = some d := by
  have hbound : d.toNat < Nat.pow 2 64 := d.toNat_lt
  have hread : Numeral.below? ⟨false, digits d.toNat, [], none⟩ (Nat.pow 2 64) = some d.toNat := by
    simp [Numeral.below?, Numeral.natural?, valueOf_digits, hbound]
  rw [h, span?, ofNat, below?, hread, Option.map_some, UInt64.ofNat_toNat]

theorem AttentiveMode.read_of_meantBy {j : Json} {m : AttentiveMode} (h : MeantBy j m) : ofJson? j = some m := by
  have hname : named all name (glyphs m.name) = some m := by
    rw [named_glyphs]
    cases m <;> decide
  rcases h with rfl | rfl
  · exact hname
  · exact hname

namespace Preferences

variable {l : List (List Glyph × Json)} {s : Preferences}

theorem ToldBy.ofJson?_eq (h : s.ToldBy l) : ofJson? (.object l) = some s := by
  have hread := fun p => (h.told p).read (f := bool?) fun j v hj => by rw [hj, bool?]
  obtain ⟨a, ha, hav⟩ := hread .approach
  obtain ⟨b, hb, hbv⟩ := hread .silence
  obtain ⟨c, hc, hcv⟩ := hread .attentive
  obtain ⟨d, hd, hdv⟩ := hread .pickUp
  obtain ⟨e, he, hev⟩ := hread .flashlight
  have hfields : fields? fieldNames (.object l) = some [a, b, c, d, e] := by
    rw [fields?_object h.named]
    simp [fieldNames, Preference.all, ha, hb, hc, hd, he]
  rw [ofJson?, hfields]
  simp [hav, hbv, hcv, hdv, hev, get]

end Preferences

namespace Timings

variable {l : List (List Glyph × Json)} {t : Timings}

theorem ToldBy.ofJson?_eq (h : t.ToldBy l) : ofJson? (.object l) = some t := by
  obtain ⟨a, ha, hav⟩ := h.silenceDelay.read fun _ _ => Span.read_of_meantBy
  obtain ⟨b, hb, hbv⟩ := h.stowWindow.read fun _ _ => Span.read_of_meantBy
  obtain ⟨c, hc, hcv⟩ := h.dimHold.read fun _ _ => Span.read_of_meantBy
  obtain ⟨d, hd, hdv⟩ := h.dozeInterval.read fun _ _ => Span.read_of_meantBy
  obtain ⟨e, he, hev⟩ := h.vibration.read fun _ _ => Span.read_of_meantBy
  have hfields : fields? fieldNames (.object l) = some [a, b, c, d, e] := by
    rw [fields?_object h.named]
    simp [fieldNames, ha, hb, hc, hd, he]
  rw [ofJson?, hfields]
  simp [byDefault, hav, hbv, hcv, hdv, hev]

end Timings

namespace Config

variable {s : String} {l k : List (List Glyph × Json)} {c : Config}

theorem ToldBy.ofJson?_eq (h : c.ToldBy l) : ofJson? (.object l) = some c := by
  obtain ⟨x, hx, hxv⟩ := h.preferences.read (f := Preferences.ofJson?) fun j s ⟨m, hj, hm⟩ => hj ▸ hm.ofJson?_eq
  obtain ⟨y, hy, hyv⟩ := h.timings.read (f := Timings.ofJson?) fun j t ⟨m, hj, hm⟩ => hj ▸ hm.ofJson?_eq
  obtain ⟨z, hz, hzv⟩ := h.mode.read fun _ _ => AttentiveMode.read_of_meantBy
  have hfields : fields? fieldNames (.object l) = some [x, y, z] := by
    rw [fields?_object h.named]
    simp [fieldNames, hx, hy, hz]
  rw [ofJson?, hfields]
  simp [byDefault, hxv, hyv, hzv]

theorem ofText?_of_spells (h : Spells s (.object l)) : ofText? s = ofJson? (.object l) := by
  rw [ofText?, read_of_spells h, Option.bind_some]

theorem ofText_of_unread (hs : Spells s (.object l)) (h : ofJson? (.object l) = none) :
    ofText s = .error .malformed := by
  rw [ofText, ofText?_of_spells hs, h]

theorem ofJson?_of_fields? {j : Json} (h : fields? fieldNames j = none) : ofJson? j = none := by
  rw [ofJson?, h]
  rfl

theorem mapM_fieldNames (f : String → Option (Option Json)) : fieldNames.mapM f =
    (f "preferences").bind fun x => (f "timings").bind fun y => (f "attentive_mode").map fun z => [x, y, z] := by
  rw [fieldNames, List.mapM_cons, List.mapM_cons, List.mapM_cons, List.mapM_nil]
  cases f "preferences" <;> cases f "timings" <;> cases f "attentive_mode" <;> rfl

theorem SameText.ofJson?_eq (h : SameText l k) : ofJson? (.object l) = ofJson? (.object k) := by
  have hp := sole?_of_alike byDefault.preferences (f := Preferences.ofJson?)
    (h.preferences.imp fun _ _ hj => by rw [Preferences.ofJson?, hj.fields?_eq, Preferences.ofJson?])
  have ht := sole?_of_alike byDefault.timings (f := Timings.ofJson?)
    (h.timings.imp fun _ _ hj => by rw [Timings.ofJson?, hj.fields?_eq, Timings.ofJson?])
  rw [ofJson?, ofJson?, fields?_object h.left, fields?_object h.right, mapM_fieldNames, mapM_fieldNames, h.mode]
  rcases hp with ⟨hl, hk⟩ | ⟨x, x', hx, hx', hxx⟩
  · rw [hl, hk]
    rfl
  rcases ht with ⟨hl, hk⟩ | ⟨y, y', hy, hy', hyy⟩
  · rw [hx, hx', hl, hk]
    rfl
  rw [hx, hx', hy, hy']
  cases sole? (values k "attentive_mode") with
  | none => rfl
  | some z => simp [hxx, hyy]

/-- A record within a configuration that cannot be read leaves the configuration unread. -/
theorem ofJson?_of_unread {m : List (List Glyph × Json)} {n : String}
    (h : n = "preferences" ∧ Preferences.ofJson? (.object m) = none ∨ n = "timings" ∧ Timings.ofJson? (.object m) = none)
    (hm : .object m ∈ values l n) : ofJson? (.object l) = none := by
  have hn : n ∈ fieldNames := by
    rcases h with ⟨rfl, _⟩ | ⟨rfl, _⟩ <;> decide
  by_cases htwice : 2 ≤ (values l n).length
  · exact ofJson?_of_fields? (fields?_of_twice hn htwice)
  have hsole : sole? (values l n) = some (some (.object m)) := by
    match hv : values l n with
    | [] => simp [hv] at hm
    | [j] => rw [hv, List.mem_singleton] at hm; rw [hm]; rfl
    | _ :: _ :: _ => simp [hv] at htwice
  cases hk : named? l with
  | none => exact ofJson?_of_fields? (by rw [fields?, hk]; rfl)
  | some k =>
    rw [ofJson?, fields?_of_named? hk, mapM_fieldNames]
    rcases h with ⟨rfl, hr⟩ | ⟨rfl, hr⟩
    · rw [hsole]
      cases sole? (values l "timings") <;> cases sole? (values l "attentive_mode") <;> simp [orDefault, hr]
    · rw [hsole]
      cases sole? (values l "preferences") <;> cases sole? (values l "attentive_mode") <;> simp [orDefault, hr]

theorem check_eq (c : Config) : c.check =
    if c.timings.stowWindow ≠ 0 ∧ c.timings.dimHold ≠ 0 then .ok c
    else .error (if c.timings.stowWindow = 0 then .stowWindowIsZero else .dimHoldIsZero) := by
  rw [check]
  by_cases hw : c.timings.stowWindow = 0
  · simp [hw]
  · by_cases hd : c.timings.dimHold = 0 <;> simp [hw, hd]

/-- Nothing is read that has a window or a dim hold of no length. -/
theorem nonzero_of_ofText (h : ofText s = .ok c) : c.timings.stowWindow ≠ 0 ∧ c.timings.dimHold ≠ 0 := by
  rw [ofText] at h
  cases hc : ofText? s with
  | none => rw [hc] at h; cases h
  | some c' =>
    rw [hc] at h
    dsimp only at h
    rw [check_eq] at h
    split at h
    · rename_i hnz
      rwa [← Except.ok.inj h]
    · cases h

/-- An object text comes to what it says, unless it says that the window or the dim hold has
no length. Order and members of other names have no bearing on that. A field said twice,
of the configuration or of a record in it, makes the text malformed, and nothing that is read
from any text has a window or a dim hold of no length. -/
theorem ofText_overrides :
    (∀ s l c, Spells s (.object l) → ToldBy l c →
      (ofText s = .ok c ↔ c.timings.stowWindow ≠ 0 ∧ c.timings.dimHold ≠ 0) ∧
      (¬(c.timings.stowWindow ≠ 0 ∧ c.timings.dimHold ≠ 0) →
        ofText s = .error (if c.timings.stowWindow = 0 then .stowWindowIsZero else .dimHoldIsZero))) ∧
    (∀ s t l k, Spells s (.object l) → Spells t (.object k) → SameText l k → ofText s = ofText t) ∧
    (∀ s l, ∀ n ∈ fieldNames, Spells s (.object l) → 2 ≤ (values l n).length → ofText s = .error .malformed) ∧
    (∀ s l m, ∀ n ∈ Preferences.fieldNames, Spells s (.object l) → .object m ∈ values l "preferences" →
      2 ≤ (values m n).length → ofText s = .error .malformed) ∧
    (∀ s l m, ∀ n ∈ Timings.fieldNames, Spells s (.object l) → .object m ∈ values l "timings" →
      2 ≤ (values m n).length → ofText s = .error .malformed) ∧
    ∀ s c, ofText s = .ok c → c.timings.stowWindow ≠ 0 ∧ c.timings.dimHold ≠ 0 := by
  refine ⟨fun s l c hs hc => ?_, fun s t l k hs ht h => ?_, fun s l n hn hs h => ?_, fun s l m n hn hs hm h => ?_,
    fun s l m n hn hs hm h => ?_, fun s c h => nonzero_of_ofText h⟩
  · have hread : ofText s = c.check := by rw [ofText, ofText?_of_spells hs, hc.ofJson?_eq]
    rw [hread, check_eq]
    split <;> simp [*]
  · rw [ofText, ofText, ofText?_of_spells hs, ofText?_of_spells ht, h.ofJson?_eq]
  · exact ofText_of_unread hs (ofJson?_of_fields? (fields?_of_twice hn h))
  · refine ofText_of_unread hs (ofJson?_of_unread (.inl ⟨rfl, ?_⟩) hm)
    rw [Preferences.ofJson?, fields?_of_twice hn h]
    rfl
  · refine ofText_of_unread hs (ofJson?_of_unread (.inr ⟨rfl, ?_⟩) hm)
    rw [Timings.ofJson?, fields?_of_twice hn h]
    rfl

/-- Nothing is said but that the dim hold has no length, beside something of no meaning. -/
theorem ofText_overrides_dimHold :
    ofText (record [("theme", .ofString "dark"), ("timings", .record [("dim_hold_ms", .ofNat 0)])]).text =
      .error .dimHoldIsZero := by
  have hplain : Plain (record [("theme", .ofString "dark"), ("timings", .record [("dim_hold_ms", .ofNat 0)])]) := by
    refine .record (List.forall_mem_cons.mpr ⟨.text _, List.forall_mem_singleton.mpr (.record ?_)⟩)
    exact List.forall_mem_singleton.mpr (.nat 0)
  let t : Timings := { Timings.byDefault with dimHold := 0 }
  have ht : t.ToldBy ([("dim_hold_ms", Json.ofNat 0)].map fun m => (glyphs m.1, m.2)) := by
    refine ⟨named_map_glyphs _, .absent ?_, .absent ?_, .present (j := .ofNat 0) ?_ rfl, .absent ?_, .absent ?_⟩ <;>
      simp [values, text?_glyphs]
  have hc : ToldBy ([("theme", .ofString "dark"), ("timings", .record [("dim_hold_ms", .ofNat 0)])].map
      fun m => (glyphs m.1, m.2)) { byDefault with timings := t } := by
    refine ⟨named_map_glyphs _, .absent ?_, .present (j := .record [("dim_hold_ms", .ofNat 0)]) ?_ ⟨_, rfl, ht⟩,
      .absent ?_⟩ <;> simp [values, text?_glyphs]
  exact (ofText_overrides.1 _ _ _ (spells_text hplain) hc).2 (by decide)

end Config

end GestureActions
