import Drumline.Text.Size
import Drumline.Numeral

/-! Byte positions in a text.  A span counts bytes of the UTF-8 form; `slice?` cuts the characters
of a span out of a text, and refuses a span that is reversed, that ends after the text, or that
splits a character. -/

namespace Drumline

/-- The bytes from `start` up to but not including `stop`. -/
structure Span where
  start : Nat
  stop : Nat
  deriving DecidableEq

namespace Span

def length (s : Span) : Nat := s.stop - s.start

def isEmpty (s : Span) : Bool := s.start == s.stop

/-- The two ends with two points between them. -/
def render (s : Span) : List Char :=
  Numeral.ofNat s.start ++ '.' :: '.' :: Numeral.ofNat s.stop

/-- The text cut after its first `n` bytes, unless it has fewer bytes or the cut splits a
character. -/
def cut? : Nat → List Char → Option (List Char × List Char)
  | 0, text => some ([], text)
  | _ + 1, [] => none
  | n + 1, c :: text =>
    if c.utf8Size ≤ n + 1 then
      (cut? (n + 1 - c.utf8Size) text).map fun (before, after) => (c :: before, after)
    else none
  termination_by _ text => text.length

/-- The characters of the span in `text`. -/
def slice? (text : List Char) (s : Span) : Option (List Char) := do
  guard (s.start ≤ s.stop)
  let (_, rest) ← cut? s.start text
  let (inside, _) ← cut? s.length rest
  return inside

end Span

end Drumline
