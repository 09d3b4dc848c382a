import GestureActions.Json.Value

/-!
# Reading JSON

The grammar and nothing more: no value is too large, too deep or too strange to be
read. Each reader takes what it needs from the front of the text and gives back the
rest. The readers of nested values take turns on a supply of steps that any text is
too short to use up.
-/
namespace GestureActions.Json

def isSpace (c : Char) : Bool := c = ' ' || c = '\t' || c = '\n' || c = '\r'

def skip (cs : List Char) : List Char := cs.dropWhile isSpace

def isDigit (c : Char) : Bool := '0' ≤ c && c ≤ '9'

def digitOf (c : Char) : Nat := c.toNat - '0'.toNat

def run (cs : List Char) : List Nat × List Char :=
  ((cs.takeWhile isDigit).map digitOf, cs.dropWhile isDigit)

/-- One digit or more; more than one only if the first is not zero. -/
def whole? (cs : List Char) : Option (List Nat × List Char) :=
  match run cs with
  | ([], _) => none
  | (d :: r, rest) => if d = 0 && !r.isEmpty then none else some (d :: r, rest)

def fraction? : List Char → Option (List Nat × List Char)
  | '.' :: cs =>
    match run cs with
    | ([], _) => none
    | (l, rest) => some (l, rest)
  | cs => some ([], cs)

def sign : List Char → Bool × List Char
  | '-' :: cs => (true, cs)
  | '+' :: cs => (false, cs)
  | cs => (false, cs)

def power? : List Char → Option (Option TenPower × List Char)
  | c :: cs =>
    if c = 'e' || c = 'E' then
      let (negative, cs) := sign cs
      match run cs with
      | ([], _) => none
      | (l, rest) => some (some ⟨negative, l⟩, rest)
    else some (none, c :: cs)
  | [] => some (none, [])

def minus : List Char → Bool × List Char
  | '-' :: cs => (true, cs)
  | cs => (false, cs)

def numeral? (cs : List Char) : Option (Numeral × List Char) := do
  let (negative, cs) := minus cs
  let (w, cs) ← whole? cs
  let (f, cs) ← fraction? cs
  let (p, cs) ← power? cs
  some (⟨negative, w, f, p⟩, cs)

def hexDigit? (c : Char) : Option Nat :=
  if '0' ≤ c && c ≤ '9' then some (c.toNat - '0'.toNat)
  else if 'a' ≤ c && c ≤ 'f' then some (c.toNat - 'a'.toNat + 10)
  else if 'A' ≤ c && c ≤ 'F' then some (c.toNat - 'A'.toNat + 10)
  else none

def unit? (a b c d : Char) : Option Nat := do
  some (((← hexDigit? a) * 16 + (← hexDigit? b)) * 256 + ((← hexDigit? c) * 16 + (← hexDigit? d)))

/-- The character that a one-letter escape stands for. -/
def escaped? : Char → Option Char
  | '"' => some '"'
  | '\\' => some '\\'
  | '/' => some '/'
  | 'b' => some '\x08'
  | 'f' => some '\x0c'
  | 'n' => some '\n'
  | 'r' => some '\r'
  | 't' => some '\t'
  | _ => none

/-- Part of a string: a character, or a 16-bit unit given by its number. -/
inductive Piece
  | char (c : Char)
  | unit (n : Nat)
  deriving DecidableEq, Repr

/-- The parts of a string up to its closing quote. -/
def pieces? : List Char → Option (List Piece × List Char)
  | [] => none
  | c :: r =>
    if c = '"' then some ([], r)
    else if c = '\\' then
      match r with
      | [] => none
      | e :: s =>
        if e = 'u' then
          match s with
          | w :: x :: y :: z :: t =>
            match unit? w x y z, pieces? t with
            | some n, some (l, rest) => some (.unit n :: l, rest)
            | _, _ => none
          | _ => none
        else
          match escaped? e, pieces? s with
          | some d, some (l, rest) => some (.char d :: l, rest)
          | _, _ => none
    else if c < ' ' then none
    else
      match pieces? r with
      | some (l, rest) => some (.char c :: l, rest)
      | none => none

def isHigh (n : Nat) : Bool := 0xd800 ≤ n && n < 0xdc00
def isLow (n : Nat) : Bool := 0xdc00 ≤ n && n < 0xe000

def paired (high low : Nat) : Char := Char.ofNat (0x10000 + (high - 0xd800) * 0x400 + (low - 0xdc00))

/-- A part put before a string. A high surrogate takes in a low one that stands alone
right after it; a surrogate without its partner stays alone. -/
def join (p : Piece) (l : List Glyph) : List Glyph :=
  match p with
  | .char c => .char c :: l
  | .unit n =>
    if isHigh n then
      match l with
      | .lone m :: r => if isLow m then .char (paired n m) :: r else .lone n :: l
      | _ => .lone n :: l
    else if isLow n then .lone n :: l
    else .char (Char.ofNat n) :: l

def joined (l : List Piece) : List Glyph := l.foldr join []

def quoted? (cs : List Char) : Option (List Glyph × List Char) :=
  (pieces? cs).map (fun p => (joined p.1, p.2))

/-- A word of the grammar at the front of a text. -/
def word? (w : List Char) (v : Json) (cs : List Char) : Option (Json × List Char) :=
  if w.isPrefixOf cs then some (v, cs.drop w.length) else none

mutual

def value? : Nat → List Char → Option (Json × List Char)
  | 0, _ => none
  | n + 1, cs =>
    match skip cs with
    | [] => none
    | c :: r =>
      if c = '"' then (quoted? r).map (fun p => (string p.1, p.2))
      else if c = '[' then
        match skip r with
        | ']' :: s => some (array [], s)
        | _ => (items? n r).map (fun p => (array p.1, p.2))
      else if c = '{' then
        match skip r with
        | '}' :: s => some (object [], s)
        | _ => (members? n r).map (fun p => (object p.1, p.2))
      else if c = 'n' then word? ['n', 'u', 'l', 'l'] null (c :: r)
      else if c = 't' then word? ['t', 'r', 'u', 'e'] (bool true) (c :: r)
      else if c = 'f' then word? ['f', 'a', 'l', 's', 'e'] (bool false) (c :: r)
      else (numeral? (c :: r)).map (fun p => (number p.1, p.2))

def items? : Nat → List Char → Option (List Json × List Char)
  | 0, _ => none
  | n + 1, cs =>
    match value? n cs with
    | none => none
    | some (v, r) =>
      match skip r with
      | ',' :: s => (items? n s).map (fun p => (v :: p.1, p.2))
      | ']' :: s => some ([v], s)
      | _ => none

def members? : Nat → List Char → Option (List (List Glyph × Json) × List Char)
  | 0, _ => none
  | n + 1, cs =>
    match skip cs with
    | '"' :: r =>
      match quoted? r with
      | none => none
      | some (k, r) =>
        match skip r with
        | ':' :: r =>
          match value? n r with
          | none => none
          | some (v, r) =>
            match skip r with
            | ',' :: s => (members? n s).map (fun p => ((k, v) :: p.1, p.2))
            | '}' :: s => some ([(k, v)], s)
            | _ => none
        | _ => none
    | _ => none

end

/-- More steps than the readers of nested values can take on a text. -/
def steps (cs : List Char) : Nat := 2 * cs.length + 2

def readChars (cs : List Char) : Option Json :=
  match value? (steps cs) cs with
  | some (v, rest) => if (skip rest).isEmpty then some v else none
  | none => none

def read (s : String) : Option Json := readChars s.toList

end GestureActions.Json
