import Drumline.Command

/-! The conversion options, and the deletions that they ask for in a source. -/

namespace Drumline

structure Options where
  stripVolume : Bool := false
  stripTempo : Bool := false
  deriving DecidableEq

namespace Options

/-- Each option that is set in one of the two. -/
def merge (a b : Options) : Options :=
  ⟨a.stripVolume || b.stripVolume, a.stripTempo || b.stripTempo⟩

def isVolumeLetter (c : Char) : Bool := c == 'v' || c == 'V'

def isTempoLetter (c : Char) : Bool := c == 't' || c == 'T'

/-- The text without the commands whose letter satisfies `p`. -/
def deleteCommands (p : Char → Bool) (text : List Char) : List Char :=
  replaceCommands p (fun _ _ => []) text

/-- The source without the commands that the options delete, the volume commands first. -/
def preprocess (o : Options) (source : List Char) : List Char :=
  let source := if o.stripVolume then deleteCommands isVolumeLetter source else source
  if o.stripTempo then deleteCommands isTempoLetter source else source

end Options

end Drumline
