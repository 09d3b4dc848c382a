import GestureActions.Json.Value

/-!
# Writing JSON

Without spaces. In a string the quote, the backslash and the control characters are
escaped, those with a letter of their own by it, and everything else stands for itself.
-/
namespace GestureActions.Json

def hexChar (n : Nat) : Char := Nat.digitChar n

/-- A 16-bit unit by its number, in lower case. -/
def unitEscape (n : Nat) : List Char :=
  ['\\', 'u', hexChar (n / 4096 % 16), hexChar (n / 256 % 16), hexChar (n / 16 % 16), hexChar (n % 16)]

def charText (c : Char) : List Char :=
  if c = '"' then ['\\', '"']
  else if c = '\\' then ['\\', '\\']
  else if c = '\x08' then ['\\', 'b']
  else if c = '\x0c' then ['\\', 'f']
  else if c = '\n' then ['\\', 'n']
  else if c = '\r' then ['\\', 'r']
  else if c = '\t' then ['\\', 't']
  else if c < ' ' then unitEscape c.toNat
  else [c]

def glyphText : Glyph → List Char
  | .char c => charText c
  | .lone n => unitEscape n

def quotedText (s : List Glyph) : List Char := '"' :: s.flatMap glyphText ++ ['"']

def digitText (l : List Nat) : List Char := l.map Nat.digitChar

def numeralText (n : Numeral) : List Char :=
  (if n.negative then ['-'] else []) ++ digitText n.whole
    ++ (if n.fraction.isEmpty then [] else '.' :: digitText n.fraction)
    ++ (match n.power with
        | none => []
        | some p => 'e' :: (if p.negative then ['-'] else []) ++ digitText p.digits)

mutual

def chars : Json → List Char
  | null => ['n', 'u', 'l', 'l']
  | bool true => ['t', 'r', 'u', 'e']
  | bool false => ['f', 'a', 'l', 's', 'e']
  | number n => numeralText n
  | string s => quotedText s
  | array [] => ['[', ']']
  | array (v :: r) => '[' :: v.chars ++ itemChars r
  | object [] => ['{', '}']
  | object ((k, v) :: r) => '{' :: quotedText k ++ ':' :: v.chars ++ memberChars r

/-- The items after the first, and the closing bracket. -/
def itemChars : List Json → List Char
  | [] => [']']
  | v :: r => ',' :: v.chars ++ itemChars r

/-- The members after the first, and the closing brace. -/
def memberChars : List (List Glyph × Json) → List Char
  | [] => ['}']
  | (k, v) :: r => ',' :: quotedText k ++ ':' :: v.chars ++ memberChars r

end

def text (j : Json) : String := String.ofList j.chars

end GestureActions.Json
