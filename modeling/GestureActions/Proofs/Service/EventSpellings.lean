import GestureActions.Proofs.Json.Printing
import GestureActions.Proofs.Json.Records
import GestureActions.Service.EventText

/-! # Spellings of a host event

The text written for an event is read as that event, and so is every other spelling of the
same members in any order, among members of other names that can be decoded. An event of
which a member is missing or stands twice is refused.
-/
namespace GestureActions

open Json

namespace HostEvent

/-- The name of an event's kind. -/
def kind : HostEvent → String
  | screenOn => "screen_on"
  | screenOff => "screen_off"
  | alarm _ => "alarm"
  | callState _ => "call_state"
  | preference _ _ => "preference"

/-- What is written of an event beside its kind. -/
def fields : HostEvent → List (String × Json)
  | screenOn | screenOff => []
  | alarm a => [("action", .ofString a)]
  | callState s => [("state", .ofString s.name)]
  | preference k v => [("key", .ofString k), ("enabled", .bool v)]

def told (e : HostEvent) : List (String × Json) := (kindMember, .ofString e.kind) :: e.fields

/-- The members of an event as they stand in its object. -/
def members (e : HostEvent) : List (List Glyph × Json) := e.told.map fun m => (glyphs m.1, m.2)

/-- None of the names that an event uses. -/
def Foreign (e : HostEvent) (name : List Glyph) : Prop := ∀ m ∈ e.told, name ≠ glyphs m.1

theorem toJson_eq (e : HostEvent) : e.toJson = .object e.members := by
  cases e <;> rfl

/-- All that is written of an event is texts and switches. -/
theorem told_cases {p : String × Json → Prop} (e : HostEvent) (ht : ∀ n s, p (n, .ofString s))
    (hb : ∀ n b, p (n, .bool b)) : ∀ m ∈ e.told, p m := by
  refine List.forall_mem_cons.mpr ⟨ht _ e.kind, ?_⟩
  cases e with
  | screenOn => exact nofun
  | screenOff => exact nofun
  | alarm a => exact List.forall_mem_singleton.mpr (ht _ a)
  | callState s => exact List.forall_mem_singleton.mpr (ht _ s.name)
  | preference k v => exact List.forall_mem_cons.mpr ⟨ht _ k, List.forall_mem_singleton.mpr (hb _ v)⟩

theorem plain_toJson (e : HostEvent) : Plain e.toJson := by
  rw [toJson_eq]
  exact .record (told_cases e (fun _ => .text) (fun _ => .bool))

theorem decodable_members (e : HostEvent) : decodableMembers e.members = true := by
  rw [decodableMembers_iff, members, List.forall_mem_map]
  have htext : ∀ s, (text? (glyphs s)).isSome = true := fun s => by rw [text?_glyphs]; rfl
  exact told_cases e (fun _ s => ⟨htext _, htext s⟩) (fun _ _ => ⟨htext _, rfl⟩)

theorem depth_toJson (e : HostEvent) : e.toJson.depth = 1 := by
  cases e <;> rfl

theorem values_members (e : HostEvent) : ∀ m ∈ e.told, values e.members m.1 = [m.2] := by
  intro m hm
  rw [members, values_glyphs]
  revert m
  cases e <;> simp [told, fields, kindMember]

/-! ## Kinds -/

variable {e : HostEvent} {l kept dropped extra : List (List Glyph × Json)} {m : String × Json}

theorem ofMember?_name (s : CallState) : CallState.ofMember? (.ofString s.name) = some s := by
  rw [CallState.ofMember?, ofString, choice?, named_glyphs]
  cases s <;> decide

theorem ofKind?_fields {f : List String → Option (List Json)}
    (h : f (e.fields.map (·.1)) = some (e.fields.map (·.2))) : ofKind? e.kind f = some e := by
  cases e <;> simp only [fields, List.map_cons, List.map_nil] at h <;>
    simp [kind, ofKind?, h, string?_ofString, ofMember?_name, bool?]

theorem ofKind?_of_none {f : List String → Option (List Json)} (h : f (e.fields.map (·.1)) = none) :
    ofKind? e.kind f = none := by
  cases e <;> simp only [fields, List.map_cons, List.map_nil] at h <;> simp [kind, ofKind?, h]

theorem ofDecoded?_object {k : List (String × Json)} (h : named? l = some k) : ofDecoded? (.object l) =
    ((only? l kindMember).bind string?).bind fun kind => ofKind? kind fun ns => ns.mapM (only? l) := by
  have honly : ∀ n, (field? k n).bind id = only? l n := fun n => by
    rw [field?_eq h, only?]
    cases sole? (values l n) <;> rfl
  have hvalues : valuesOf? k = fun ns => ns.mapM (only? l) := funext fun ns => congrArg ns.mapM (funext honly)
  rw [← hvalues, ← honly]
  simp only [ofDecoded?, h, Option.bind_eq_bind, Option.bind_some]
  cases field? k kindMember with
  | none => rfl
  | some j => rfl

theorem ofDecoded?_of_only (hl : Named l) (h : ∀ m ∈ e.told, only? l m.1 = some m.2) :
    ofDecoded? (.object l) = some e := by
  obtain ⟨k, hk⟩ := exists_named? hl
  obtain ⟨hkind, hfields⟩ := List.forall_mem_cons.mp h
  rw [ofDecoded?_object hk, hkind, Option.bind_some, string?_ofString, Option.bind_some]
  exact ofKind?_fields (mapM_eq_some hfields)

/-- A member that is not there exactly once, and no other kind told. -/
theorem ofDecoded?_of_gap (hm : m ∈ e.told) (hgap : only? l m.1 = none)
    (hkind : ∀ j, only? l kindMember = some j → j = .ofString e.kind) : ofDecoded? (.object l) = none := by
  cases hk : named? l with
  | none => rw [ofDecoded?, hk]; rfl
  | some k =>
    rw [ofDecoded?_object hk]
    cases hj : only? l kindMember with
    | none => rfl
    | some j =>
      rw [hkind j hj, Option.bind_some, string?_ofString, Option.bind_some]
      rcases List.mem_cons.mp hm with rfl | hf
      · rw [hj] at hgap
        cases hgap
      · exact ofKind?_of_none (mapM_eq_none (List.mem_map_of_mem hf) hgap)

/-! ## Spellings -/

theorem values_foreign (hm : m ∈ e.told) (h : ∀ x ∈ extra, e.Foreign x.1) : values extra m.1 = [] :=
  values_eq_nil fun x hx ht => h x hx m hm (text?_eq_some_iff.mp ht)

theorem only?_of_perm (hl : l.Perm (e.members ++ extra)) (h : ∀ x ∈ extra, e.Foreign x.1) (hm : m ∈ e.told) :
    only? l m.1 = some m.2 := by
  have hv := values_perm hl m.1
  rw [values_append, values_members e m hm, values_foreign hm h, List.append_nil] at hv
  exact only?_eq_some_iff.mpr (List.perm_singleton.mp hv)

theorem ofDecoded?_of_perm (hl : l.Perm (e.members ++ extra)) (h : ∀ x ∈ extra, e.Foreign x.1) (hn : Named l) :
    ofDecoded? (.object l) = some e :=
  ofDecoded?_of_only hn fun _ => only?_of_perm hl h

/-- A member left out. -/
theorem ofDecoded?_of_dropped (hd : e.members.Perm (dropped ++ kept)) (hne : dropped ≠ [])
    (hl : l.Perm (kept ++ extra)) (h : ∀ x ∈ extra, e.Foreign x.1) : ofDecoded? (.object l) = none := by
  obtain ⟨x, hx⟩ := List.exists_mem_of_ne_nil dropped hne
  obtain ⟨m, hm, rfl⟩ := List.mem_map.mp (hd.mem_iff.mpr (List.mem_append_left kept hx))
  have hgap : values l m.1 = [] := by
    have hcount := (values_perm hd m.1).length_eq
    have hdropped := List.length_pos_of_mem (mem_values.mpr hx)
    rw [values_members e m hm, values_append, List.length_append, List.length_singleton] at hcount
    have hlength := (values_perm hl m.1).length_eq
    rw [values_append, values_foreign hm h, List.append_nil] at hlength
    exact List.length_eq_zero_iff.mp (by omega)
  refine ofDecoded?_of_gap hm (by rw [only?, hgap]; rfl) fun j hj => ?_
  have hmem : (glyphs kindMember, j) ∈ l := mem_values.mp (by rw [only?_eq_some_iff.mp hj]; exact List.mem_singleton_self j)
  rcases List.mem_append.mp (hl.mem_iff.mp hmem) with hk | hf
  · have hj := mem_values.mpr (hd.mem_iff.mpr (List.mem_append_right dropped hk))
    rw [values_members e _ List.mem_cons_self] at hj
    exact List.mem_singleton.mp hj
  · exact absurd rfl (h _ hf _ List.mem_cons_self)

/-- A member of a name of the event's own beside those of the event. -/
theorem ofDecoded?_of_repeated (hl : l.Perm (e.members ++ extra)) (h : ¬∀ x ∈ extra, e.Foreign x.1) :
    ofDecoded? (.object l) = none := by
  have hown : ∃ x ∈ extra, ∃ m ∈ e.told, x.1 = glyphs m.1 := by simpa [Foreign] using h
  obtain ⟨⟨_, j⟩, hx, m, hm, rfl⟩ := hown
  have hgap : 2 ≤ (values l m.1).length := by
    have hextra := List.length_pos_of_mem (mem_values.mpr hx)
    rw [(values_perm hl m.1).length_eq, values_append, values_members e m hm, List.length_append, List.length_singleton]
    omega
  refine ofDecoded?_of_gap hm (by rw [only?, sole?_eq_none_iff.mpr hgap]; rfl) fun j hj => ?_
  have hmem : (glyphs kindMember, ofString e.kind) ∈ l :=
    hl.mem_iff.mpr (List.mem_append_left extra (List.mem_map.mpr ⟨_, List.mem_cons_self, rfl⟩))
  have hkind := mem_values.mpr hmem
  rw [only?_eq_some_iff.mp hj] at hkind
  exact (List.mem_singleton.mp hkind).symm

theorem ofText?_of_spells {s : String} (h : Spells s (.object l)) : ofText? s = ofJson? (.object l) := by
  rw [ofText?, read_of_spells h, Option.bind_some]

theorem ofJson?_of_none {j : Json} (h : ofDecoded? j = none) : ofJson? j = none := by
  rw [ofJson?, h, ite_self]

theorem named_of_decodable (h : (Json.object l).isDecodable = true) : Named l := by
  rw [isDecodable, decodableMembers_iff] at h
  exact fun m hm => (h m hm).1

/-- An event is read from the text written for it, and from every text that spells the members
of the event in any order, among others of foreign names that can be decoded and that are not
nested too deep. With members missing, or with others beside them that bear a name of the
event's own, nothing is read. -/
theorem ofText?_spellings (e : HostEvent) :
    e.toJson = .object e.members ∧ ofText? e.toJson.text = some e ∧
    (∀ s l extra, Spells s (.object l) → l.Perm (e.members ++ extra) → (∀ x ∈ extra, e.Foreign x.1) →
      (Json.object extra).isDecodable = true → (Json.object l).depth ≤ 127 → ofText? s = some e) ∧
    (∀ s l extra, Spells s (.object l) → l.Perm (e.members ++ extra) → ¬(∀ x ∈ extra, e.Foreign x.1) →
      ofText? s = none) ∧
    ∀ s l dropped kept extra, Spells s (.object l) → e.members.Perm (dropped ++ kept) → dropped ≠ [] →
      l.Perm (kept ++ extra) → (∀ x ∈ extra, e.Foreign x.1) → ofText? s = none := by
  have hread : ∀ s l extra, Spells s (.object l) → l.Perm (e.members ++ extra) → (∀ x ∈ extra, e.Foreign x.1) →
      (Json.object extra).isDecodable = true → (Json.object l).depth ≤ 127 → ofText? s = some e := by
    intro s l extra hs hl hforeign hextra hdepth
    have hdec : (Json.object l).isDecodable = true := by
      have hown := decodableMembers_iff.mp (decodable_members e)
      rw [isDecodable, decodableMembers_iff] at hextra ⊢
      intro m hm
      exact (List.mem_append.mp (hl.mem_iff.mp hm)).elim (hown m) (hextra m)
    rw [ofText?_of_spells hs, ofJson?, hdec, ofDecoded?_of_perm hl hforeign (named_of_decodable hdec)]
    simp [deepest, hdepth]
  refine ⟨e.toJson_eq, ?_, hread, fun s l extra hs hl h => ?_, fun s l dropped kept extra hs hd hne hl h => ?_⟩
  · have hs := spells_text (plain_toJson e)
    rw [toJson_eq] at hs ⊢
    refine hread _ _ [] hs (by rw [List.append_nil]) nofun rfl ?_
    rw [← toJson_eq, depth_toJson]
    decide
  · rw [ofText?_of_spells hs, ofJson?_of_none (ofDecoded?_of_repeated hl h)]
  · rw [ofText?_of_spells hs, ofJson?_of_none (ofDecoded?_of_dropped hd hne hl h)]

/-- The members of an alarm written backwards, another among them. -/
theorem ofText?_spellings_backwards :
    ofText? (record [("urgent", .bool true), ("action", .ofString "snooze"), ("type", .ofString "alarm")]).text =
      some (.alarm "snooze") := by
  have hplain : Plain (record [("urgent", .bool true), ("action", .ofString "snooze"), ("type", .ofString "alarm")]) :=
    .record (List.forall_mem_cons.mpr ⟨.bool true,
      List.forall_mem_cons.mpr ⟨.text _, List.forall_mem_singleton.mpr (.text _)⟩⟩)
  refine (ofText?_spellings (.alarm "snooze")).2.2.1 _ _ [(glyphs "urgent", .bool true)] (spells_text hplain)
    (List.reverse_perm (members (.alarm "snooze") ++ [(glyphs "urgent", Json.bool true)])) ?_ ?_ ?_
  · simp only [List.forall_mem_singleton, Foreign, told, fields, List.forall_mem_cons]
    decide
  · simp [isDecodable, decodableMembers, text?_glyphs]
  · decide

end HostEvent

end GestureActions
