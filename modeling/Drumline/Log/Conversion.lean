import Drumline.Log.Basic
import Drumline.Score

/-! The events of a conversion, in the order in which they are reported. -/

namespace Drumline

/-- What is reported about a lexeme that is played in the state. -/
def State.events (s : State) (x : Lexeme) : List Event :=
  match x.token with
  | .note letter accidental _ =>
    match Pitch.absolute s.octave letter accidental with
    | .ok _ => []
    | .error error => [.keptAsWritten x.raw error]
  | _ => []

/-- What is reported while lexemes and strays are played from the state on. -/
def State.scanEvents (s : State) : List Lexeme → List Event
  | [] => []
  | x :: xs =>
    (if x.isStray then [.dropped x] else s.events x) ++ (s.advance x.token).scanEvents xs

def Voice.events (voice : List Char) : List Event :=
  State.initial.scanEvents (Lexeme.scan voice) ++
    [.played (fragments voice).length (finalState voice), .intermediate (spaced voice)] ++
    (repeats (spaced voice)).map .droppedRepeat ++ [.converted voice (convert voice)]

/-- What is reported about a source: that it has too many voices, then each voice in turn. -/
def Score.events (options : Options) (source : List Char) : List Event :=
  let source := options.preprocess source
  (if surplus source = 0 then [] else [.surplusVoices (surplus source) voiceLimit]) ++
    (ofSource source).toList.flatMap Voice.events

end Drumline
