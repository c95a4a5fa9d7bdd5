import Drumline.Length

/-! Fragments: the pieces of a converted voice.  A note or rest is written with its length in front.
`resolveTies` silences each note that comes directly after a tie. -/

namespace Drumline

/-- A piece of a converted voice.  A verbatim piece is written as it was read; the number of a note
is not yet looked up in the kit. -/
inductive Fragment where
  | verbatim (text : List Char)
  | tie
  | rest (length : Length)
  | note (length : Length) (number : List Char)
  deriving DecidableEq

namespace Fragment

def render : Fragment → List Char
  | verbatim text => text
  | tie => ['&']
  | rest length => length.render ++ [' ', 'r']
  | note length number => length.render ++ ' ' :: 'n' :: number

/-- The fragment as it sounds after a tie: a note whose number is a numeral falls silent and keeps
its length; a note with a negative number, and all else, is not changed. -/
def silence : Fragment → Fragment
  | note length number => if Numeral.isNumeral number then rest length else note length number
  | other => other

/-- The fragments after one that was a tie or was not. -/
def resolveAfter : Bool → List Fragment → List Fragment
  | _, [] => []
  | afterTie, f :: fs => (if afterTie then f.silence else f) :: resolveAfter (f == tie) fs

/-- The fragments with each note silenced that comes directly after a tie. -/
def resolveTies (fragments : List Fragment) : List Fragment := resolveAfter false fragments

def join (fragments : List Fragment) : List Char :=
  List.intercalate [' '] (fragments.map render)

end Fragment

end Drumline
