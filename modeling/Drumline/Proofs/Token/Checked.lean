import Drumline.Proofs.Span
import Drumline.Proofs.Token.Spelling

/-! Reading tokens in checked steps.  A text is cut by bytes and only between characters, and
nothing but a digit is read as one; where such a step is not possible, the reading breaks off with a
`Failure`.  The first lemmas say exactly when each step is possible (`dropByte_eq_ok_iff`,
`readWord_eq_ok_iff`).  The main statement is `readToken_eq_ok`, that a text which spells a token is
read to the end. -/

namespace Drumline

open Token (Written dotText)

/-- Why a conversion in checked steps breaks off. -/
inductive Failure where
  /-- The span is reversed, ends after the text or splits a character. -/
  | badSpan (text : List Char) (span : Span)
  /-- A character that is no digit is to be read as one. -/
  | noDigit (c : Char)
  /-- A text with the shape of a token spells none. -/
  | noToken (raw : List Char)
  /-- A note has no pitch. -/
  | noPitch (error : Pitch.Error)
  deriving DecidableEq

namespace Checked

/-! ### Steps -/

/-- The characters of the span in `text`. -/
def slice (text : List Char) (span : Span) : Except Failure (List Char) :=
  match Span.slice? text span with
  | some part => .ok part
  | none => .error (.badSpan text span)

/-- The text behind its first byte. -/
def dropByte (text : List Char) : Except Failure (List Char) :=
  slice text ⟨1, Text.byteSize text⟩

def digitValue (c : Char) : Except Failure Nat :=
  if c.isDigit then .ok (Numeral.digitValue c) else .error (.noDigit c)

def readWord (digits : List Char) : Except Failure Nat :=
  digits.foldlM (fun sofar c => do
    let value ← digitValue c
    return min (min (sofar * 10) Numeral.greatestWord + value) Numeral.greatestWord) 0

def readShortWord (digits : List Char) : Except Failure UInt32 := do
  let word ← readWord digits
  return UInt32.ofNat (min word 0xFFFFFFFF)

def readOctave (digits : List Char) : Except Failure Int := do
  let word ← readWord digits
  return min (word : Int) Pitch.greatest

/-- Reads digits and an optional dot; a text of another form is no duration. -/
def parseDuration? (text : List Char) : Except Failure (Option Duration) :=
  let (digits, dotted) := Duration.splitDot text
  if digits.all Char.isDigit then
    if digits.isEmpty then
      .ok (some ⟨none, dotted⟩)
    else do
      let value ← readShortWord digits
      return some ⟨some value, dotted⟩
  else
    .ok none

/-- Reads a whole length macro; a text of another form is none. -/
def parseMacro? : List Char → Except Failure (Option Length)
  | 'l' :: body => do
    let duration? ← parseDuration? body
    return do
      let duration ← duration?
      let value ← duration.value
      return ⟨value, duration.dotted⟩
  | _ => .ok none

/-- The text behind the sign that it starts with, if there is one. -/
def dropSign (text : List Char) : Except Failure (List Char) :=
  if text.head?.any Token.isSign then dropByte text else .ok text

def readNote? (letter : Char) (tail : List Char) : Except Failure (Option Token) := do
  let duration? ← parseDuration? (← dropSign tail)
  return duration?.map (.note letter (.ofSign (tail.head?.filter Token.isSign)))

/-- The token that a text spells, given that it has the shape which its first character asks for.
Reading a token of the other kinds takes no further step. -/
def read? : List Char → Except Failure (Option Token)
  | [] => .ok none
  | 'o' :: tail => do
    let octave ← readOctave (← dropByte ('o' :: tail))
    return some (.octaveSet octave)
  | 'l' :: tail => do
    let length? ← parseMacro? ('l' :: tail)
    return length?.map .lengthMacro
  | 'r' :: tail => do
    let duration? ← parseDuration? (← dropByte ('r' :: tail))
    return duration?.map .rest
  | 'n' :: tail => do
    let body ← dropByte ('n' :: tail)
    return some (Token.readAbsolute body)
  | c :: tail =>
    if Token.isNoteLetter c then readNote? c tail else .ok (Token.read? (c :: tail))

/-- The token that a text spells. -/
def readToken (raw : List Char) : Except Failure Token := do
  match ← read? raw with
  | some token => return token
  | none => throw (.noToken raw)

/-! ### When a step is possible -/

variable {text part tail digits raw : List Char} {c : Char} {token : Token} {span : Span}

/-- Behind a step that is possible, the rest goes on with its result. -/
theorem bind_eq_ok {α β : Type} {m : Except Failure α} {a : α} (h : m = .ok a)
    (f : α → Except Failure β) : (m >>= f) = f a := by
  rw [h]
  rfl

theorem slice_eq_ok_iff : slice text span = .ok part ↔ Span.slice? text span = some part := by
  unfold slice
  cases Span.slice? text span <;> simp

/-- The first character can be cut off by its first byte exactly if it has no other. -/
theorem dropByte_eq_ok_iff : dropByte (c :: tail) = .ok tail ↔ c.utf8Size = 1 := by
  rw [dropByte, slice_eq_ok_iff, Span.slice?_eq_some_iff]
  constructor
  · rintro ⟨-, hStop⟩
    have hSize : c.utf8Size + Text.byteSize tail = 1 + Text.byteSize tail := hStop
    omega
  · intro hSize
    exact ⟨⟨[c], [], by simp, by simp [hSize]⟩, by simp [hSize]⟩

example : dropByte ['é', '4'] = .error (.badSpan ['é', '4'] ⟨1, 3⟩) := by decide +kernel

/-- Characters can be read as a word exactly if they are digits. -/
theorem readWord_eq_ok_iff :
    readWord digits = .ok (Numeral.readWord digits) ↔ ∀ c ∈ digits, c.isDigit = true := by
  rw [readWord, Numeral.readWord, Numeral.readUpTo]
  generalize 0 = sofar
  induction digits generalizing sofar with
  | nil => simp [pure, Except.pure]
  | cons c digits ih =>
    rw [List.foldlM_cons, List.foldl_cons, List.forall_mem_cons]
    by_cases hDigit : c.isDigit = true
    · have hStep : digitValue c = .ok (Numeral.digitValue c) := if_pos hDigit
      simp only [bind_eq_ok hStep, hDigit, true_and]
      exact ih _
    · have hStep : digitValue c = .error (.noDigit c) := if_neg hDigit
      rw [hStep]
      simp [hDigit, bind, Except.bind]

theorem readShortWord_eq_ok (h : ∀ c ∈ digits, c.isDigit = true) :
    readShortWord digits = .ok (Numeral.readShortWord digits) := by
  rw [readShortWord, bind_eq_ok (readWord_eq_ok_iff.mpr h)]
  rfl

theorem readOctave_eq_ok (h : ∀ c ∈ digits, c.isDigit = true) :
    readOctave digits = .ok (Token.readOctave digits) := by
  rw [readOctave, bind_eq_ok (readWord_eq_ok_iff.mpr h)]
  rfl

/-- Durations are read only from digits, whatever the text. -/
theorem parseDuration?_eq_ok (text : List Char) :
    parseDuration? text = .ok (Duration.parse? text) := by
  unfold parseDuration? Duration.parse?
  cases Duration.splitDot text with
  | mk digits dotted =>
    by_cases hDigits : digits.all Char.isDigit = true
    · cases digits with
      | nil => rfl
      | cons d ds =>
        have hWord := readShortWord_eq_ok (List.all_eq_true.mp hDigits)
        simp only [hDigits, if_true, List.isEmpty_cons, Bool.false_eq_true, if_false,
          bind_eq_ok hWord]
        rfl
    · simp only [hDigits, Bool.false_eq_true, if_false]

theorem parseMacro?_eq_ok (text : List Char) :
    parseMacro? text = .ok (Length.parseMacro? text) := by
  unfold parseMacro?
  split
  · rw [bind_eq_ok (parseDuration?_eq_ok _)]
    rfl
  · next hNot =>
    cases text with
    | nil => rfl
    | cons c body =>
      rw [Length.parseMacro?_eq_none]
      rintro rfl
      exact hNot body rfl

/-! ### Texts that spell a token -/

theorem dropSign_eq_ok {sign : Option Char} (hSign : ∀ c ∈ sign, Token.isSign c = true)
    (hDigits : ∀ c ∈ digits, c.isDigit = true) (dotted : Bool) :
    dropSign (sign.toList ++ (digits ++ dotText dotted)) = .ok (digits ++ dotText dotted) ∧
      (sign.toList ++ (digits ++ dotText dotted)).head?.filter Token.isSign = sign := by
  cases sign with
  | none =>
    have hHead : ∀ c ∈ (digits ++ dotText dotted).head?, Token.isSign c = false :=
      Token.headNot_isSign_append hDigits dotted
    rw [Option.toList_none, List.nil_append, dropSign]
    cases hText : (digits ++ dotText dotted).head? with
    | none => simp
    | some c => simp [hHead c hText]
  | some c =>
    have hc : Token.isSign c = true := hSign c rfl
    have hSize : c.utf8Size = 1 := by
      simp only [Token.isSign, Bool.or_eq_true, beq_iff_eq] at hc
      rcases hc with rfl | rfl <;> rfl
    have hDrop : dropByte (c :: (digits ++ dotText dotted)) = .ok (digits ++ dotText dotted) :=
      dropByte_eq_ok_iff.mpr hSize
    simp [dropSign, hc, hDrop]

theorem readNote?_eq_ok {letter : Char} {sign : Option Char}
    (hSign : ∀ c ∈ sign, Token.isSign c = true) (hDigits : ∀ c ∈ digits, c.isDigit = true)
    (dotted : Bool) : readNote? letter (sign.toList ++ digits ++ dotText dotted) =
      .ok (some (.note letter (.ofSign sign) (.ofParts digits dotted))) := by
  obtain ⟨hDrop, hHead⟩ := dropSign_eq_ok hSign hDigits dotted
  rw [readNote?, List.append_assoc, bind_eq_ok hDrop, bind_eq_ok (parseDuration?_eq_ok _), hHead,
    Duration.parse?_append hDigits]
  rfl

theorem read?_of_isDigit (h : c.isDigit = true) (tail : List Char) :
    read? (c :: tail) = .ok (some .number) := by
  have hLetter := Token.isNoteLetter_eq_false_of_isDigit h
  rw [← Token.read?_of_isDigit h tail]
  unfold read?
  split <;> first | exact absurd h (by decide) | simp_all

/-- The text of a token is read to the end, and as this token. -/
theorem read?_eq_ok (h : Written raw token) : read? raw = .ok (some token) := by
  have hNumeral : ∀ {digits : List Char}, Numeral.isNumeral digits = true →
      ∀ c ∈ digits, c.isDigit = true := fun h => (Numeral.isNumeral_iff.mp h).2
  have hDrop : ∀ {c : Char} {tail : List Char}, c.utf8Size = 1 → dropByte (c :: tail) = .ok tail :=
    fun h => dropByte_eq_ok_iff.mpr h
  cases h with
  | octaveUp | octaveDown | tie | volume | tempo | dot => rfl
  | octaveSet h =>
    rw [read?, bind_eq_ok (hDrop rfl), bind_eq_ok (readOctave_eq_ok (hNumeral h))]
    rfl
  | lengthMacro h dotted =>
    rw [read?, bind_eq_ok (parseMacro?_eq_ok _), Length.parseMacro?_append h]
    rfl
  | rest h dotted =>
    rw [read?, bind_eq_ok (hDrop rfl), bind_eq_ok (parseDuration?_eq_ok _),
      Duration.parse?_append h]
    rfl
  | absolute h dotted =>
    rw [read?, bind_eq_ok (hDrop rfl), Token.readAbsolute, Duration.splitDot_append (hNumeral h)]
    rfl
  | @note letter sign digits hLetter hSign hDigits dotted =>
    have hRead : ∀ tail, read? (letter :: tail) = readNote? letter tail := by
      intro tail
      rcases Token.isNoteLetter_iff.mp hLetter with rfl | rfl | rfl | rfl | rfl | rfl | rfl <;> rfl
    rw [hRead, readNote?_eq_ok hSign hDigits]
  | @number digits h dotted =>
    obtain ⟨d, ds, rfl, hDigit, -⟩ := Numeral.exists_cons h
    exact read?_of_isDigit hDigit _

theorem readToken_eq_ok (h : Written raw token) : readToken raw = .ok token := by
  rw [readToken, bind_eq_ok (read?_eq_ok h)]
  rfl

end Checked

end Drumline
