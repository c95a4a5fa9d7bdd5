import Drumline.Compact
import Drumline.Kit.Remap
import Drumline.State

/-! Converting one voice.  Its lexemes are played from the initial state, notes after ties fall
silent, the numbers of the notes are looked up in the kit, and the text is compacted. -/

namespace Drumline.Voice

/-- The fragments of a voice, ties resolved and numbers not yet looked up. -/
def fragments (voice : List Char) : List Fragment :=
  Fragment.resolveTies (State.initial.emitAll (Lexeme.tokenize voice))

def finalState (voice : List Char) : State := State.initial.advanceAll (Lexeme.tokenize voice)

/-- The converted voice with spaces between its fragments. -/
def spaced (voice : List Char) : List Char := Kit.remap (Fragment.join (fragments voice))

def convert (voice : List Char) : List Char := compact (spaced voice)

end Drumline.Voice
