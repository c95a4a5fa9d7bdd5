import Drumline.Json.Printer
import Drumline.Kit
import Drumline.Lexeme

/-! Listings of tokens, in columns and as JSON, and of the percussion kit. -/

namespace Drumline

def Json.ofNat (n : Nat) : Json := .num (Numeral.ofNat n)

/-- The length value, or null if it is not set, and the dot. -/
def Duration.toJson (d : Duration) : Json :=
  .obj [("value".toList, (d.value.map fun v => Json.ofNat v.toNat).getD .null),
    ("dotted".toList, .bool d.dotted)]

def Length.toJson (l : Length) : Json :=
  .obj [("value".toList, Json.ofNat l.value.toNat), ("dotted".toList, .bool l.dotted)]

def Accidental.toJson : Accidental → Json
  | flat => .str "Flat".toList
  | natural => .str "Natural".toList
  | sharp => .str "Sharp".toList

/-- A token that carries nothing is its name; any other is an object with its name as the only
key. -/
def Token.toJson : Token → Json
  | octaveSet octave => .obj [("OctaveSet".toList, .num (Numeral.ofInt octave))]
  | octaveUp => .str "OctaveUp".toList
  | octaveDown => .str "OctaveDown".toList
  | lengthMacro length => .obj [("LengthMacro".toList, length.toJson)]
  | tie => .str "Tie".toList
  | note letter accidental duration =>
    .obj [("Note".toList, .obj [("letter".toList, .str [letter]),
      ("accidental".toList, accidental.toJson), ("duration".toList, duration.toJson)])]
  | rest duration => .obj [("Rest".toList, duration.toJson)]
  | absolute digits duration =>
    .obj [("Absolute".toList, .obj [("digits".toList, .str digits),
      ("duration".toList, duration.toJson)])]
  | volume => .str "Volume".toList
  | tempo => .str "Tempo".toList
  | number => .str "Number".toList
  | stray => .str "Stray".toList

namespace Lexeme

def toJson (x : Lexeme) : Json :=
  .obj [("token".toList, x.token.toJson), ("raw".toList, .str x.raw),
    ("span".toList, .obj [("start".toList, Json.ofNat x.span.start),
      ("end".toList, Json.ofNat x.span.stop)])]

def columnWidth : Nat := 8

/-- A line of a listing: the place, flush right, the text, flush left, and the token. -/
def listing (x : Lexeme) : List Char :=
  let place := x.span.render
  List.replicate (columnWidth - place.length) ' ' ++ place ++ [' ', ' '] ++ x.raw ++
    List.replicate (columnWidth - x.raw.length) ' ' ++ ' ' :: x.token.describe

end Lexeme

def Kit.listing (entry : Nat × Nat) : List Char :=
  'n' :: Numeral.ofNat entry.1 ++ " -> n".toList ++ Numeral.ofNat entry.2

end Drumline
