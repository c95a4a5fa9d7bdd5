import Drumline.Json.Printer
import Drumline.Options
import Drumline.Voice

/-! Scores.  The voices of a source stand between commas; the player takes the first three, and a
voice that the source does not have is empty.  Each voice is converted on its own. -/

namespace Drumline

def voiceLimit : Nat := 3

/-- One text for each voice of the player. -/
abbrev Score := Vector (List Char) voiceLimit

namespace Score

/-- The parts of a source between its commas, at least one. -/
def segments (source : List Char) : List (List Char) := source.splitOn ','

def ofSource (source : List Char) : Score :=
  Vector.ofFn fun i => ((segments source)[i.val]?).getD []

/-- The number of segments of a source that no voice takes. -/
def surplus (source : List Char) : Nat := (segments source).length - voiceLimit

/-- The score with the commands deleted that the options name and each voice converted. -/
def convert (options : Options) (source : List Char) : Score :=
  (ofSource (options.preprocess source)).map Voice.convert

def render (score : Score) : List Char := List.intercalate ['\n'] score.toList

def toJson (score : Score) : Json :=
  .obj [("voices".toList, .arr (score.toList.map .str))]

end Score

end Drumline
