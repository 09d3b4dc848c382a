import GestureActions.Json.Printer
import GestureActions.Json.Reader

/-! # The grammar of JSON texts

Which texts spell a value, told from the value down to its characters. A value has many
spellings: blanks may stand between any two tokens, a character of a string may be written
as itself or as one of its escapes, and a power of ten with a large or a small letter.
-/
namespace GestureActions

namespace Json

def Blank (w : List Char) : Prop := ∀ c ∈ w, c = ' ' ∨ c = '\t' ∨ c = '\n' ∨ c = '\r'

/-- One decimal digit or more. -/
def Digits (l : List Nat) : Prop := l ≠ [] ∧ ∀ d ∈ l, d < 10

inductive FractionSpelt : List Nat → List Char → Prop
  | none : FractionSpelt [] []
  | point {l : List Nat} (hl : Digits l) : FractionSpelt l ('.' :: digitText l)

inductive PowerSpelt : Option TenPower → List Char → Prop
  | none : PowerSpelt none []
  | unsigned {e : Char} {l : List Nat} (he : e = 'e' ∨ e = 'E') (hl : Digits l) :
    PowerSpelt (some ⟨false, l⟩) (e :: digitText l)
  | signed {e : Char} {l : List Nat} (negative : Bool) (he : e = 'e' ∨ e = 'E') (hl : Digits l) :
    PowerSpelt (some ⟨negative, l⟩) (e :: (if negative then '-' else '+') :: digitText l)

/-- A numeral has no leading zeros, and no plus sign in front. -/
inductive NumeralSpelt : Numeral → List Char → Prop
  | mk (negative : Bool) {w f : List Nat} {p : Option TenPower} {fs ps : List Char}
    (hw : Digits w) (hz : w.head? = some 0 → w = [0]) (hf : FractionSpelt f fs) (hp : PowerSpelt p ps) :
    NumeralSpelt ⟨negative, w, f, p⟩ ((if negative then ['-'] else []) ++ digitText w ++ fs ++ ps)

inductive PieceSpelt : Piece → List Char → Prop
  | plain {c : Char} (hq : c ≠ '"') (hb : c ≠ '\\') (hc : ¬c < ' ') : PieceSpelt (.char c) [c]
  | letter {e c : Char} (h : escaped? e = some c) : PieceSpelt (.char c) ['\\', e]
  | number {a b c d : Char} {n : Nat} (h : unit? a b c d = some n) : PieceSpelt (.unit n) ['\\', 'u', a, b, c, d]

/-- The string that the parts between its quotes make. A high surrogate and a low one right
after it are one character; one without the other stays alone. -/
inductive Makes : List Piece → List Glyph → Prop
  | nil : Makes [] []
  | char {c : Char} {ps : List Piece} {gs : List Glyph} (h : Makes ps gs) : Makes (.char c :: ps) (.char c :: gs)
  | unit {n : Nat} {ps : List Piece} {gs : List Glyph} (hh : isHigh n = false) (hl : isLow n = false)
    (h : Makes ps gs) : Makes (.unit n :: ps) (.char (Char.ofNat n) :: gs)
  | pair {n m : Nat} {ps : List Piece} {gs : List Glyph} (hn : isHigh n = true) (hm : isLow m = true)
    (h : Makes ps gs) : Makes (.unit n :: .unit m :: ps) (.char (paired n m) :: gs)
  | low {n : Nat} {ps : List Piece} {gs : List Glyph} (hn : isLow n = true) (h : Makes ps gs) :
    Makes (.unit n :: ps) (.lone n :: gs)
  | high {n : Nat} {ps : List Piece} {gs : List Glyph} (hn : isHigh n = true)
    (hp : ∀ m, ps.head? = some (.unit m) → isLow m = false) (h : Makes ps gs) :
    Makes (.unit n :: ps) (.lone n :: gs)

inductive StringSpelt : List Glyph → List Char → Prop
  | mk (parts : List (Piece × List Char)) {s : List Glyph} (hp : ∀ p ∈ parts, PieceSpelt p.1 p.2)
    (hs : Makes (parts.map (·.1)) s) : StringSpelt s ('"' :: parts.flatMap (·.2) ++ ['"'])

/-- A value with a text of its own and the blanks around it. -/
structure Item where
  before : List Char
  value : Json
  body : List Char
  after : List Char

def Item.text (i : Item) : List Char := i.before ++ i.body ++ i.after

/-- A name, a colon and an item. -/
structure Member where
  before : List Char
  name : List Glyph
  quoted : List Char
  after : List Char
  item : Item

def Member.text (m : Member) : List Char := m.before ++ m.quoted ++ m.after ++ ':' :: m.item.text

def commaed (l : List (List Char)) : List Char := [','].intercalate l

/-- A text that spells a value, without blanks before or after it. -/
inductive SpeltAs : Json → List Char → Prop
  | null : SpeltAs null ['n', 'u', 'l', 'l']
  | isTrue : SpeltAs (bool true) ['t', 'r', 'u', 'e']
  | isFalse : SpeltAs (bool false) ['f', 'a', 'l', 's', 'e']
  | number {n : Numeral} {cs : List Char} (h : NumeralSpelt n cs) : SpeltAs (number n) cs
  | string {s : List Glyph} {cs : List Char} (h : StringSpelt s cs) : SpeltAs (string s) cs
  | noItems {w : List Char} (hw : Blank w) : SpeltAs (array []) ('[' :: w ++ [']'])
  | items {l : List Item} (hl : l ≠ []) (hb : ∀ i ∈ l, Blank i.before ∧ Blank i.after)
    (h : ∀ i ∈ l, SpeltAs i.value i.body) :
    SpeltAs (array (l.map (·.value))) ('[' :: commaed (l.map Item.text) ++ [']'])
  | noMembers {w : List Char} (hw : Blank w) : SpeltAs (object []) ('{' :: w ++ ['}'])
  | members {l : List Member} (hl : l ≠ []) (hb : ∀ m ∈ l, Blank m.before ∧ Blank m.after)
    (hn : ∀ m ∈ l, StringSpelt m.name m.quoted) (hi : ∀ m ∈ l, Blank m.item.before ∧ Blank m.item.after)
    (h : ∀ m ∈ l, SpeltAs m.item.value m.item.body) :
    SpeltAs (object (l.map fun m => (m.name, m.item.value))) ('{' :: commaed (l.map Member.text) ++ ['}'])

/-- A whole text that spells a value, blanks around it allowed. -/
def Spells (s : String) (j : Json) : Prop :=
  ∃ i : Item, s.toList = i.text ∧ i.value = j ∧ Blank i.before ∧ Blank i.after ∧ j.SpeltAs i.body

end Json

end GestureActions
