import Drumline.Fragment
import Drumline.Lexeme

/-! Playing a voice.  The state is the octave and the default length; each lexeme changes it and may
emit a fragment. -/

namespace Drumline

/-- What a player remembers between two lexemes. -/
structure State where
  octave : Int
  length : Length
  deriving DecidableEq

namespace State

def initial : State := ⟨4, .initial⟩

def advance (s : State) : Token → State
  | .octaveSet octave => { s with octave }
  | .octaveUp => { s with octave := Pitch.clamp (s.octave + 1) }
  | .octaveDown => { s with octave := Pitch.clamp (s.octave - 1) }
  | .lengthMacro length => { s with length }
  | _ => s

/-- The fragment that a lexeme emits.  Octave tokens and strays emit nothing, and a note whose
letter has no pitch is kept as written. -/
def emit? (s : State) (x : Lexeme) : Option Fragment :=
  match x.token with
  | .octaveSet _ | .octaveUp | .octaveDown | .stray => none
  | .tie => some .tie
  | .rest duration => some (.rest (duration.resolve s.length))
  | .absolute digits duration => some (.note (duration.resolve s.length) digits)
  | .note letter accidental duration =>
    match Pitch.absolute s.octave letter accidental with
    | .ok number => some (.note (duration.resolve s.length) (Numeral.ofInt number))
    | .error _ => some (.verbatim x.raw)
  | .lengthMacro _ | .volume | .tempo | .number => some (.verbatim x.raw)

/-- The fragments that the lexemes emit one after the other. -/
def emitAll (s : State) : List Lexeme → List Fragment
  | [] => []
  | x :: xs => (s.emit? x).toList ++ (s.advance x.token).emitAll xs

def advanceAll (s : State) (xs : List Lexeme) : State :=
  xs.foldl (fun s x => s.advance x.token) s

end State

end Drumline
