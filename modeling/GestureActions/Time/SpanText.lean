import GestureActions.Time.Instant

/-!
# Spans in words

A span below a second is written in milliseconds, a longer one in seconds with its
fraction and without trailing zeros, and none at all in the smallest unit.
-/
namespace GestureActions.Span

/-- The three digits of a number of milliseconds, trailing zeros left out. -/
def fraction (ms : Nat) : List Char :=
  ([ms / 100 % 10, ms / 10 % 10, ms % 10].map Nat.digitChar).reverse.dropWhile (· = '0') |>.reverse

def text (d : Span) : String :=
  let ms := d.toNat
  if ms = 0 then "0ns"
  else if ms < 1000 then toString ms ++ "ms"
  else
    let f := fraction (ms % 1000)
    toString (ms / 1000) ++ (if f.isEmpty then "" else "." ++ String.ofList f) ++ "s"

end GestureActions.Span
