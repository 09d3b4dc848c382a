/-!
# Quoted text

Text between double quotes in which whatever does not show by itself is written as an
escape: a letter for the common control characters, a number in braces for the rest.
-/
namespace GestureActions.Text

def hexOf (n : Nat) : List Char := Nat.toDigits 16 n

def numbered (c : Char) : List Char := ['\\', 'u', '\x7b'] ++ hexOf c.toNat ++ ['\x7d']

/-- One character; `hidden` tells which characters do not show. -/
def charText (hidden : Char → Bool) (c : Char) : List Char :=
  if c = '\x00' then ['\\', '0']
  else if c = '\t' then ['\\', 't']
  else if c = '\r' then ['\\', 'r']
  else if c = '\n' then ['\\', 'n']
  else if c = '"' then ['\\', '"']
  else if c = '\\' then ['\\', '\\']
  else if hidden c then numbered c
  else [c]

def quoted (hidden : Char → Bool) (s : String) : String :=
  String.ofList ('"' :: s.toList.flatMap (charText hidden) ++ ['"'])

end GestureActions.Text
