import Drumline.Length
import Drumline.Text.Blank
import Drumline.Text.Size
import Drumline.Token.Shape

/-! Compaction.  A text is divided into runs, each a length macro or a stretch without blanks.
`compact` leaves out every length macro that repeats the length of the macro before it, and all
blanks; the grammar of the player needs none. -/

namespace Drumline

/-- A run of a text, the byte at which it starts, and whether it was taken as a length macro. -/
structure Run where
  text : List Char
  start : Nat
  asMacro : Bool
  deriving DecidableEq

namespace Run

/-- The length macro at the start of `c :: text`, without its first character, and the rest. -/
def splitMacro? (c : Char) (text : List Char) : Option (List Char × List Char) :=
  if c = 'l' then Token.Shape.split? ⟨false, .some, true⟩ text else none

theorem splitMacro?_append {c : Char} {text tail rest : List Char}
    (h : splitMacro? c text = some (tail, rest)) : tail ++ rest = text := by
  unfold splitMacro? at h
  split at h
  · exact Token.Shape.split?_append h
  · cases h

def isSolid (c : Char) : Bool := !Text.isBlank c

/-- The first run of a text: the characters after its first one, the rest of the text, and whether
it was taken as a length macro. -/
structure Head where
  tail : List Char
  rest : List Char
  asMacro : Bool

/-- The first run of `c :: text`, where `c` is no blank: a length macro if there is one, and the
longest stretch without blanks otherwise. -/
def head (c : Char) (text : List Char) : Head :=
  match splitMacro? c text with
  | some (tail, rest) => ⟨tail, rest, true⟩
  | none => ⟨text.takeWhile isSolid, text.dropWhile isSolid, false⟩

theorem head_append (c : Char) (text : List Char) :
    (head c text).tail ++ (head c text).rest = text := by
  unfold head
  split
  · next tail rest h => exact splitMacro?_append h
  · exact List.takeWhile_append_dropWhile

theorem length_head_rest_le (c : Char) (text : List Char) :
    (head c text).rest.length ≤ text.length := by
  have h := congrArg List.length (head_append c text)
  rw [List.length_append] at h
  omega

def scanFrom (start : Nat) : List Char → List Run
  | [] => []
  | c :: text =>
    if Text.isBlank c then
      scanFrom (start + c.utf8Size) text
    else
      ⟨c :: (head c text).tail, start, (head c text).asMacro⟩ ::
        scanFrom (start + Text.byteSize (c :: (head c text).tail)) (head c text).rest
  termination_by text => text.length
  decreasing_by
    · simp
    · have := length_head_rest_le c text
      simp only [List.length_cons]
      omega

def scan (text : List Char) : List Run := scanFrom 0 text

def length? (run : Run) : Option Length := Length.parseMacro? run.text

/-- After a macro that set `last`, the run sets the same length again. -/
def isRepeat (last : Option Length) (run : Run) : Bool :=
  run.length?.isSome && run.length? == last

/-- The runs with the repeats marked, where `last` is the length set before them. -/
def markRepeats (last : Option Length) : List Run → List (Run × Bool)
  | [] => []
  | run :: runs => (run, run.isRepeat last) :: markRepeats (run.length? <|> last) runs

end Run

/-- The runs of a text that repeat the length set before them. -/
def repeats (text : List Char) : List Run :=
  ((Run.markRepeats none (Run.scan text)).filter (·.2)).map (·.1)

/-- The text without repeated length macros and without blanks. -/
def compact (text : List Char) : List Char :=
  ((Run.markRepeats none (Run.scan text)).filter (!·.2)).flatMap (·.1.text)

end Drumline
