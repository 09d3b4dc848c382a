import GestureActions.Json.Record
import Mathlib.Data.List.Forall2

/-! # What an object says of its fields

A record goes by the values that stand under the names of its fields, and by nothing else:
not by the order of the members, nor by those of other names. A field whose name stands
twice makes the whole object unreadable.
-/
namespace GestureActions.Json

/-- The values that stand under a name, in order. -/
def values (l : List (List Glyph × Json)) (name : String) : List Json :=
  (l.filter fun m => text? m.1 = some name).map (·.2)

/-- All names are made of characters. -/
def Named (l : List (List Glyph × Json)) : Prop := ∀ m ∈ l, (text? m.1).isSome = true

/-- The value among at most one. -/
def sole? : List Json → Option (Option Json)
  | [] => some none
  | [j] => some (some j)
  | _ => none

/-- The one value that stands under a name. -/
def only? (l : List (List Glyph × Json)) (name : String) : Option Json := (sole? (values l name)).join

theorem sole?_eq_none_iff {l : List Json} : sole? l = none ↔ 2 ≤ l.length := by
  match l with
  | [] => simp [sole?]
  | [_] => simp [sole?]
  | _ :: _ :: _ => simp [sole?]

theorem sole?_perm {l k : List Json} (h : l.Perm k) : sole? l = sole? k := by
  match l, k, h with
  | [], k, h => rw [List.nil_perm.mp h]
  | [j], k, h => rw [List.singleton_perm.mp h]
  | a :: b :: r, k, h =>
    have hk : sole? k = none := sole?_eq_none_iff.mpr (by rw [← h.length_eq]; simp)
    rw [hk]
    rfl

theorem values_perm {l k : List (List Glyph × Json)} (h : l.Perm k) (name : String) : (values l name).Perm (values k name) :=
  (h.filter _).map _

theorem values_append (l k : List (List Glyph × Json)) (name : String) :
    values (l ++ k) name = values l name ++ values k name := by
  rw [values, List.filter_append, List.map_append, values, values]

theorem values_eq_nil {l : List (List Glyph × Json)} {name : String} (h : ∀ m ∈ l, text? m.1 ≠ some name) :
    values l name = [] := by
  rw [values, List.map_eq_nil_iff, List.filter_eq_nil_iff]
  exact fun m hm ht => h m hm (of_decide_eq_true ht)

theorem text?_glyphs (s : String) : text? (glyphs s) = some s := by
  have hm : ∀ cs : List Char, (cs.map Glyph.char).mapM char? = some cs := by
    intro cs
    induction cs with
    | nil => rfl
    | cons c r ih =>
      rw [List.map_cons, List.mapM_cons, ih]
      rfl
  rw [text?, glyphs, hm, Option.map_some, String.ofList_toList]

theorem string?_ofString (s : String) : (ofString s).string? = some s := text?_glyphs s

theorem named_glyphs {α : Type} (all : List α) (name : α → String) (s : String) :
    named all name (glyphs s) = all.find? (name · = s) := by
  rw [named, text?_glyphs, Option.bind_some]

theorem text?_eq_some_iff {g : List Glyph} {s : String} : text? g = some s ↔ g = glyphs s := by
  refine ⟨fun h => ?_, fun h => h ▸ text?_glyphs s⟩
  have hm : ∀ {g : List Glyph} {cs : List Char}, g.mapM char? = some cs → g = cs.map Glyph.char := by
    intro g
    induction g with
    | nil => exact fun h => by rw [← Option.some.inj h]; rfl
    | cons x r ih =>
      intro cs h
      rw [List.mapM_cons] at h
      obtain ⟨c, hc, h⟩ := Option.bind_eq_some_iff.mp h
      obtain ⟨k, hk, h⟩ := Option.bind_eq_some_iff.mp h
      rw [← Option.some.inj h, List.map_cons, ← ih hk]
      cases x with
      | char d => rw [Option.some.inj hc]
      | lone n => cases hc
  obtain ⟨cs, hcs, rfl⟩ := Option.map_eq_some_iff.mp h
  rw [hm hcs, glyphs, String.toList_ofList]

theorem mem_values {l : List (List Glyph × Json)} {name : String} {j : Json} :
    j ∈ values l name ↔ (glyphs name, j) ∈ l := by
  constructor
  · intro h
    obtain ⟨⟨g, k⟩, hm, rfl⟩ := List.mem_map.mp h
    obtain ⟨hm, hg⟩ := List.mem_filter.mp hm
    rwa [← text?_eq_some_iff.mp (of_decide_eq_true hg)]
  · intro h
    exact List.mem_map.mpr ⟨_, List.mem_filter.mpr ⟨h, decide_eq_true (text?_glyphs name)⟩, rfl⟩

theorem named_map_glyphs (l : List (String × Json)) : Named (l.map fun m => (glyphs m.1, m.2)) := by
  refine List.forall_mem_map.mpr fun m _ => ?_
  rw [text?_glyphs]
  rfl

theorem values_glyphs (l : List (String × Json)) (name : String) :
    values (l.map fun m => (glyphs m.1, m.2)) name = (l.filter (·.1 = name)).map (·.2) := by
  rw [values, List.filter_map, List.map_map]
  simp only [Function.comp_def, text?_glyphs, Option.some.injEq]

theorem only?_eq_some_iff {l : List (List Glyph × Json)} {name : String} {j : Json} :
    only? l name = some j ↔ values l name = [j] := by
  rw [only?]
  match values l name with
  | [] => simp [sole?]
  | [_] => simp [sole?]
  | _ :: _ :: _ => simp [sole?]

theorem decodableMembers_iff {l : List (List Glyph × Json)} :
    decodableMembers l = true ↔ ∀ m ∈ l, (text? m.1).isSome = true ∧ m.2.isDecodable = true := by
  induction l with
  | nil => simp [decodableMembers]
  | cons m r ih => simp [decodableMembers, ih]

/-! ## Reading fields -/

theorem mapM_eq_none {α β : Type} {f : α → Option β} {l : List α} {a : α} (ha : a ∈ l) (h : f a = none) :
    l.mapM f = none := by
  induction l with
  | nil => cases ha
  | cons b r ih =>
    rw [List.mapM_cons]
    rcases List.mem_cons.mp ha with rfl | ha
    · rw [h]
      rfl
    · rw [ih ha]
      cases f b <;> rfl

theorem mapM_eq_some {α β γ : Type} {f : α → Option β} {g : γ → α} {v : γ → β} {l : List γ}
    (h : ∀ c ∈ l, f (g c) = some (v c)) : (l.map g).mapM f = some (l.map v) := by
  induction l with
  | nil => rfl
  | cons c r ih =>
    rw [List.map_cons, List.mapM_cons, h c List.mem_cons_self, ih fun d hd => h d (List.mem_cons_of_mem c hd)]
    rfl

theorem named?_cons (m : List Glyph × Json) (l : List (List Glyph × Json)) :
    named? (m :: l) = (text? m.1).bind fun t => (named? l).map ((t, m.2) :: ·) := by
  rw [named?, List.mapM_cons, ← named?]
  cases text? m.1 <;> cases named? l <;> rfl

theorem exists_named? {l : List (List Glyph × Json)} (h : Named l) : ∃ k, named? l = some k := by
  induction l with
  | nil => exact ⟨[], rfl⟩
  | cons m r ih =>
    obtain ⟨t, ht⟩ := Option.isSome_iff_exists.mp (h m List.mem_cons_self)
    obtain ⟨k, hk⟩ := ih fun n hn => h n (List.mem_cons_of_mem m hn)
    exact ⟨(t, m.2) :: k, by rw [named?_cons, ht, hk]; rfl⟩

theorem field?_eq {l : List (List Glyph × Json)} {k : List (String × Json)} (h : named? l = some k) (name : String) :
    field? k name = sole? (values l name) := by
  have hk : (k.filter (·.1 = name)).map (·.2) = values l name := by
    induction l generalizing k with
    | nil => rw [← Option.some.inj h]; rfl
    | cons m r ih =>
      rw [named?_cons] at h
      obtain ⟨t, ht, h⟩ := Option.bind_eq_some_iff.mp h
      obtain ⟨k, hr, rfl⟩ := Option.map_eq_some_iff.mp h
      have hm : (text? m.1 = some name) = (t = name) := by rw [ht, Option.some.injEq]
      simp only [values, List.filter_cons, hm, decide_eq_true_eq]
      split
      · rw [List.map_cons, ih hr, List.map_cons, values]
      · exact ih hr
  rw [← hk, field?]
  generalize k.filter (·.1 = name) = r
  match r with
  | [] => rfl
  | [_] => rfl
  | _ :: _ :: _ => rfl

theorem fields?_of_named? {l : List (List Glyph × Json)} {k : List (String × Json)} (h : named? l = some k)
    (names : List String) : fields? names (object l) = names.mapM fun n => sole? (values l n) := by
  rw [fields?, h, Option.bind_some]
  exact congrArg names.mapM (funext (field?_eq h))

theorem fields?_object {l : List (List Glyph × Json)} (h : Named l) (names : List String) :
    fields? names (object l) = names.mapM fun n => sole? (values l n) :=
  let ⟨_, hk⟩ := exists_named? h
  fields?_of_named? hk names

/-- A name that stands twice. -/
theorem fields?_of_twice {l : List (List Glyph × Json)} {names : List String} {n : String} (hn : n ∈ names)
    (h : 2 ≤ (values l n).length) : fields? names (object l) = none := by
  rw [fields?]
  cases hk : named? l with
  | none => rfl
  | some k =>
    rw [Option.bind_some]
    exact mapM_eq_none hn (by rw [field?_eq hk, sole?_eq_none_iff.mpr h])

/-- What an object says of a field that may be left out: nothing, and it has its usual value,
or a value that stands there once. -/
inductive Told {α : Type} (l : List (List Glyph × Json)) (name : String) (usual : α) (means : Json → α → Prop) : α → Prop
  | absent (h : values l name = []) : Told l name usual means usual
  | present {j : Json} {a : α} (h : values l name = [j]) (hj : means j a) : Told l name usual means a

theorem Told.read {α : Type} {l : List (List Glyph × Json)} {name : String} {usual a : α} {means : Json → α → Prop}
    {f : Json → Option α} (h : Told l name usual means a) (hr : ∀ j b, means j b → f j = some b) :
    ∃ x, sole? (values l name) = some x ∧ orDefault usual f x = some a := by
  cases h with
  | absent h => exact ⟨none, by rw [h]; rfl, rfl⟩
  | @present j _ h hj => exact ⟨some j, by rw [h]; rfl, hr j a hj⟩

/-- Two values that, if they are objects, stand for the same record: under each name of a
field stands the same, in whatever order and among whatever else. -/
inductive SameFields (names : List String) : Json → Json → Prop
  | refl (j : Json) : SameFields names j j
  | object {l k : List (List Glyph × Json)} (hl : Named l) (hk : Named k)
    (h : ∀ n ∈ names, (values l n).Perm (values k n)) : SameFields names (object l) (object k)

theorem mapM_congr {α β : Type} {f g : α → Option β} {l : List α} (h : ∀ a ∈ l, f a = g a) : l.mapM f = l.mapM g := by
  induction l with
  | nil => rfl
  | cons a r ih =>
    rw [List.mapM_cons, List.mapM_cons, h a List.mem_cons_self, ih fun b hb => h b (List.mem_cons_of_mem a hb)]

theorem SameFields.fields?_eq {names : List String} {j k : Json} (h : SameFields names j k) :
    fields? names j = fields? names k := by
  cases h with
  | refl => rfl
  | object hl hk h =>
    rw [fields?_object hl, fields?_object hk]
    exact mapM_congr fun n hn => sole?_perm (h n hn)

/-- Values that are read alike under one name leave its field unreadable, or give it the same
value. -/
theorem sole?_of_alike {α : Type} (usual : α) {f : Json → Option α} {l k : List Json}
    (h : List.Forall₂ (fun i j => f i = f j) l k) :
    sole? l = none ∧ sole? k = none ∨
      ∃ x y, sole? l = some x ∧ sole? k = some y ∧ orDefault usual f x = orDefault usual f y := by
  cases h with
  | nil => exact .inr ⟨none, none, rfl, rfl, rfl⟩
  | @cons i j _ _ hj hr =>
    cases hr with
    | nil => exact .inr ⟨some i, some j, rfl, rfl, hj⟩
    | cons _ _ => exact .inl ⟨rfl, rfl⟩

end GestureActions.Json
