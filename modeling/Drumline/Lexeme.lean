import Drumline.Span
import Drumline.Text.Blank
import Drumline.Token.Basic

/-! Lexemes: the tokens of a voice with the text and the bytes that they were read from.
`Lexeme.scan` goes through a voice from left to right.  Gaps between tokens are skipped, the longest
token at each place is taken, and a character that starts no token becomes a stray of its own;
`tokenize` leaves the strays out. -/

namespace Drumline

/-- A token, its text and its place. -/
structure Lexeme where
  token : Token
  raw : List Char
  span : Span
  deriving DecidableEq

namespace Lexeme

/-- The first token of a text: the token, the characters of it after its first one, and the
characters after it. -/
structure Head where
  token : Token
  tail : List Char
  rest : List Char

/-- The first token of `c :: text`, where `c` is no gap. -/
def head (c : Char) (text : List Char) : Head :=
  match (Token.Shape.ofHead? c).bind (·.split? text) with
  | some (tail, rest) => ⟨(Token.read? (c :: tail)).getD .stray, tail, rest⟩
  | none => ⟨.stray, [], text⟩

theorem head_append (c : Char) (text : List Char) :
    (head c text).tail ++ (head c text).rest = text := by
  unfold head
  split
  · next tail rest h =>
    obtain ⟨shape, -, h⟩ := Option.bind_eq_some_iff.1 h
    exact Token.Shape.split?_append h
  · rfl

theorem length_head_rest_le (c : Char) (text : List Char) :
    (head c text).rest.length ≤ text.length := by
  have h := congrArg List.length (head_append c text)
  rw [List.length_append] at h
  omega

/-- The lexemes and strays of a text that starts at byte `start`. -/
def scanFrom (start : Nat) : List Char → List Lexeme
  | [] => []
  | c :: text =>
    if Text.isGap c then
      scanFrom (start + c.utf8Size) text
    else
      let stop := start + Text.byteSize (c :: (head c text).tail)
      ⟨(head c text).token, c :: (head c text).tail, ⟨start, stop⟩⟩ ::
        scanFrom stop (head c text).rest
  termination_by text => text.length
  decreasing_by
    · simp
    · have := length_head_rest_le c text
      simp only [List.length_cons]
      omega

def scan (voice : List Char) : List Lexeme := scanFrom 0 voice

def isStray (x : Lexeme) : Bool := x.token == .stray

/-- The lexemes of a voice, without the strays. -/
def tokenize (voice : List Char) : List Lexeme := (scan voice).filter (!·.isStray)

def strays (voice : List Char) : List Lexeme := (scan voice).filter isStray

end Lexeme

end Drumline
