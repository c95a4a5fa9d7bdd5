/-! The written shape of tokens.  The first character of a token fixes what may follow it: an
accidental sign, digits and a dot, in this order.  `Shape.split?` takes the longest such tail off a
text; nothing of the text is lost (`Shape.split?_append`). -/

namespace Drumline.Token

/-- How many digits a token has after its first character and its sign. -/
inductive DigitCount where
  | none
  | any
  | some
  deriving DecidableEq

/-- What may follow the first character of a token: a sign, digits, and a dot after them. -/
structure Shape where
  sign : Bool
  digits : DigitCount
  dot : Bool
  deriving DecidableEq

/-- The text cut after its first character if that character satisfies `p`, and before it
otherwise. -/
def splitHead (p : Char → Bool) : List Char → List Char × List Char
  | [] => ([], [])
  | c :: text => if p c then ([c], text) else ([], c :: text)

theorem splitHead_append (p : Char → Bool) (text : List Char) :
    (splitHead p text).1 ++ (splitHead p text).2 = text := by
  cases text with
  | nil => rfl
  | cons c text => by_cases h : p c <;> simp [splitHead, h]

def isSign (c : Char) : Bool := c == '+' || c == '-'

def isNoteLetter (c : Char) : Bool := 'a' ≤ c && c ≤ 'g'

namespace Shape

/-- The shape of the tokens that start with the character, if there are any. -/
def ofHead? (c : Char) : Option Shape :=
  if c = '>' ∨ c = '<' ∨ c = '&' ∨ c = '.' then some ⟨false, .none, false⟩
  else if c = 'o' ∨ c = 'v' ∨ c = 't' then some ⟨false, .some, false⟩
  else if c = 'l' ∨ c = 'n' then some ⟨false, .some, true⟩
  else if c = 'r' ∨ c.isDigit then some ⟨false, .any, true⟩
  else if isNoteLetter c then some ⟨true, .any, true⟩
  else none

/-- The longest sign of the shape at the start of the text, and the rest. -/
def splitSign (shape : Shape) (text : List Char) : List Char × List Char :=
  if shape.sign then splitHead isSign text else ([], text)

/-- The longest run of digits of the shape at the start of the text, and the rest. -/
def splitDigits (shape : Shape) (text : List Char) : List Char × List Char :=
  if shape.digits = .none then ([], text)
  else (text.takeWhile Char.isDigit, text.dropWhile Char.isDigit)

/-- The longest dot of the shape at the start of the text, and the rest. -/
def splitDot (shape : Shape) (text : List Char) : List Char × List Char :=
  if shape.dot then splitHead (· == '.') text else ([], text)

/-- The longest tail of the shape at the start of the text, and the rest; none if digits are due
and there are none. -/
def split? (shape : Shape) (text : List Char) : Option (List Char × List Char) :=
  let (sign, afterSign) := shape.splitSign text
  let (digits, afterDigits) := shape.splitDigits afterSign
  let (dot, rest) := shape.splitDot afterDigits
  if shape.digits = .some ∧ digits = [] then none else some (sign ++ digits ++ dot, rest)

theorem splitSign_append (shape : Shape) (text : List Char) :
    (shape.splitSign text).1 ++ (shape.splitSign text).2 = text := by
  unfold splitSign
  split
  · exact splitHead_append isSign text
  · rfl

theorem splitDigits_append (shape : Shape) (text : List Char) :
    (shape.splitDigits text).1 ++ (shape.splitDigits text).2 = text := by
  unfold splitDigits
  split
  · rfl
  · exact List.takeWhile_append_dropWhile

theorem splitDot_append (shape : Shape) (text : List Char) :
    (shape.splitDot text).1 ++ (shape.splitDot text).2 = text := by
  unfold splitDot
  split
  · exact splitHead_append (· == '.') text
  · rfl

theorem split?_append {shape : Shape} {text tail rest : List Char}
    (h : shape.split? text = some (tail, rest)) : tail ++ rest = text := by
  simp only [split?] at h
  split at h
  · cases h
  · simp only [Option.some.injEq, Prod.mk.injEq] at h
    obtain ⟨rfl, rfl⟩ := h
    rw [List.append_assoc, List.append_assoc, splitDot_append, splitDigits_append,
      splitSign_append]

end Shape

end Drumline.Token
