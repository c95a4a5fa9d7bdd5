import Drumline.CommandLine.Run
import Drumline.Main
import Drumline.Proofs.Token.Spelling
import Drumline.Proofs.Lexeme.Seam
import Drumline.Proofs.Fragment.Words
import Drumline.Proofs.Command
import Drumline.Proofs.Options
import Drumline.Proofs.Log
import Drumline.Proofs.Score
import Drumline.Proofs.Kit.Sounding
import Drumline.Proofs.Compaction
import Drumline.Proofs.Voice.SelfDelimiting
import Drumline.Proofs.Voice.Reading
import Drumline.Proofs.Voice.Tie
import Drumline.Proofs.State.Exact
import Drumline.Proofs.Voice.FixedPoint
import Drumline.Proofs.Span
import Drumline.Proofs.Token.Grammar
import Drumline.Proofs.Lexeme.Tiling
import Drumline.Proofs.Compaction.Runs
import Drumline.Proofs.Compaction.Idempotence
import Drumline.Proofs.Compaction.Playing
import Drumline.Proofs.Json.Parts
import Drumline.Proofs.Json.RoundTrip
import Drumline.Proofs.Voice.Output
import Drumline.Proofs.Score.Rendering
import Drumline.Proofs.CommandLine.Convert
import Drumline.Proofs.Lexeme.Pieces
import Drumline.Proofs.Options.Deletion
import Drumline.Proofs.Lexeme.Dropped
import Drumline.Proofs.Options.Reading
import Drumline.Proofs.Fragment.Ties
import Drumline.Proofs.Compaction.Macros
import Drumline.Proofs.Compaction.Kept
import Drumline.Proofs.Kit.Remap
import Drumline.Proofs.Numeral
import Drumline.Proofs.Token.Checked
import Drumline.Proofs.Voice.Checked
