import Drumline.Json.Fault

/-! Reading the parts of a JSON text from the left.  A part that has been read comes with the rest
of the text, which is never longer than the text it was read from. -/

namespace Drumline.Json

/-- A part read from a text, and the rest of the text. -/
structure Read (α : Type) (text : List Char) where
  value : α
  rest : List Char
  le : rest.length ≤ text.length

/-- A part of the text, or what is wrong with it. -/
abbrev Reading (α : Type) (text : List Char) := Except Fault (Read α text)

/-- A part of the end of a text is a part of the text. -/
def Read.widen {α : Type} {part text : List Char} (r : Read α part)
    (h : part.length ≤ text.length) : Read α text :=
  ⟨r.value, r.rest, Nat.le_trans r.le h⟩

/-- The first character of a text that is no blank, and the rest of the text. -/
structure Next (text : List Char) where
  char : Char
  rest : List Char
  lt : rest.length < text.length

theorem Next.le {text : List Char} (n : Next text) : n.rest.length ≤ text.length :=
  Nat.le_of_lt n.lt

theorem Next.le_read {α : Type} {text : List Char} (n : Next text) (r : Read α n.rest) :
    r.rest.length ≤ text.length := Nat.le_trans r.le n.le

def Next.place {text : List Char} (n : Next text) : List Char := n.char :: n.rest

def isBlank (c : Char) : Bool := c == ' ' || c == '\t' || c == '\n' || c == '\r'

/-- The first character that is no blank, if there is one. -/
def next? : (text : List Char) → Option (Next text)
  | [] => none
  | c :: text =>
    if isBlank c then
      (next? text).map fun n => ⟨n.char, n.rest, Nat.lt_trans n.lt (Nat.lt_succ_self _)⟩
    else
      some ⟨c, text, Nat.lt_succ_self _⟩

/-- What becomes of a value that is read.  A string that is skipped may hold surrogates without a
partner; each of them reads as the replacement character. -/
inductive Use where
  | kept
  | skipped
  deriving DecidableEq

def readWord : List Char → (text : List Char) → Reading Unit text
  | [], text => .ok ⟨(), text, Nat.le_refl _⟩
  | _ :: _, [] => .error (.atEnd .endInValue)
  | letter :: letters, c :: text =>
    if c = letter then
      (readWord letters text).map (·.widen (Nat.le_succ _))
    else
      .error (.upon .wordExpected (c :: text))

/-! ### Strings -/

def hexValue? (c : Char) : Option Nat :=
  if c.isDigit then some (c.toNat - '0'.toNat)
  else if 'a' ≤ c ∧ c ≤ 'f' then some (c.toNat - 'a'.toNat + 10)
  else if 'A' ≤ c ∧ c ≤ 'F' then some (c.toNat - 'A'.toNat + 10)
  else none

/-- Reads four bytes that are hexadecimal digits. -/
def readHex (text : List Char) : Reading Nat text :=
  if Text.byteSize text < 4 then
    .error (.atEnd .endInString)
  else
    match text with
    | a :: b :: c :: d :: rest =>
      match hexValue? a, hexValue? b, hexValue? c, hexValue? d with
      | some a, some b, some c, some d =>
        .ok ⟨((a * 16 + b) * 16 + c) * 16 + d, rest, by simp; omega⟩
      | _, _, _, _ => .error ⟨.badEscape, Text.byteSize text - 4⟩
    | _ => .error ⟨.badEscape, Text.byteSize text - 4⟩

/-- The first of the two surrogates that stand for one character. -/
def isLeading (unit : Nat) : Bool := 0xD800 ≤ unit && unit ≤ 0xDBFF

/-- The second of the two surrogates that stand for one character. -/
def isTrailing (unit : Nat) : Bool := 0xDC00 ≤ unit && unit ≤ 0xDFFF

/-- Reads the escape that has to follow a leading surrogate, and gives their character. -/
def readPartner (leading : Nat) (text : List Char) : Reading Char text :=
  match text with
  | [] => .error (.atEnd .endInString)
  | ['\\'] => .error (.atEnd .endInString)
  | '\\' :: 'u' :: digits => do
    let trailing ← readHex digits
    if isTrailing trailing.value then
      return ⟨Char.ofNat (0x10000 + (leading - 0xD800) * 0x400 + (trailing.value - 0xDC00)),
        trailing.rest, by have := trailing.le; simp; omega⟩
    else
      .error (.before .loneSurrogate trailing.rest)
  | '\\' :: other => .error (.upon .unfinishedSurrogate other)
  | other => .error (.upon .unfinishedSurrogate other)

/-- Reads the digits of a `\u` escape and what belongs to it. -/
def readUnicode (use : Use) (text : List Char) : Reading Char text := do
  let unit ← readHex text
  if ¬(isLeading unit.value || isTrailing unit.value) then
    return ⟨Char.ofNat unit.value, unit.rest, unit.le⟩
  else if use = .skipped then
    return ⟨'\uFFFD', unit.rest, unit.le⟩
  else if isTrailing unit.value then
    .error (.before .loneSurrogate unit.rest)
  else
    let partner ← readPartner unit.value unit.rest
    return partner.widen unit.le

/-- The character that a letter stands for after a backslash. -/
def unescape? : Char → Option Char
  | '"' => some '"'
  | '\\' => some '\\'
  | '/' => some '/'
  | 'b' => some '\x08'
  | 'f' => some '\x0c'
  | 'n' => some '\n'
  | 'r' => some '\r'
  | 't' => some '\t'
  | _ => none

/-- Reads an escape after its backslash. -/
def readEscape (use : Use) : (text : List Char) → Reading Char text
  | [] => .error (.atEnd .endInString)
  | c :: text =>
    match unescape? c with
    | some d => .ok ⟨d, text, Nat.le_succ _⟩
    | none =>
      if c = 'u' then (readUnicode use text).map (·.widen (Nat.le_succ _))
      else .error (.upon .badEscape (c :: text))

/-- Where a control character in a string shows. -/
def controlFault (use : Use) (c : Char) (text : List Char) : Fault :=
  match use with
  | .kept => .upon .controlCharacter (c :: text)
  | .skipped => .before .controlCharacter (c :: text)

/-- Reads a string after its opening quote. -/
def readString (use : Use) : (text : List Char) → Reading (List Char) text
  | [] => .error (.atEnd .endInString)
  | c :: text =>
    if c = '"' then
      .ok ⟨[], text, Nat.le_succ _⟩
    else if c = '\\' then do
      let escaped ← readEscape use text
      let s ← readString use escaped.rest
      return ⟨escaped.value :: s.value, s.rest,
        by have := escaped.le; have := s.le; simp only [List.length_cons]; omega⟩
    else if c.toNat < 32 then
      .error (controlFault use c text)
    else do
      let s ← readString use text
      return ⟨c :: s.value, s.rest, by have := s.le; simp only [List.length_cons]; omega⟩
  termination_by text => text.length
  decreasing_by
    · have := escaped.le
      simp only [List.length_cons]
      omega
    · simp

/-! ### Numbers -/

/-- The parts of a number: its sign, its digits before and after the point, and its exponent with a
sign of its own. -/
structure Number where
  negative : Bool
  whole : List Char
  fraction : List Char
  exponent : Option (Bool × List Char)

/-- What is wrong with a number that the end of the text cuts off. -/
def Use.endInNumber : Use → Problem
  | kept => .endInValue
  | skipped => .badNumber

def readDigits (use : Use) (text : List Char) : Reading (List Char) text :=
  match text with
  | [] => .error (.atEnd use.endInNumber)
  | c :: rest =>
    if c.isDigit then
      .ok ⟨c :: rest.takeWhile Char.isDigit, rest.dropWhile Char.isDigit,
        Nat.le_succ_of_le (List.dropWhile_suffix _).length_le⟩
    else
      .error (.upon .badNumber (c :: rest))

/-- Reads the digits before the point; a zero stands alone. -/
def readWhole (use : Use) (text : List Char) : Reading (List Char) text :=
  match text with
  | '0' :: c :: rest =>
    if c.isDigit then .error (.upon .badNumber (c :: rest))
    else .ok ⟨['0'], c :: rest, Nat.le_succ _⟩
  | other => readDigits use other

/-- Reads a point and the digits after it, if there is a point. -/
def readFraction (use : Use) (text : List Char) : Reading (List Char) text :=
  match text with
  | '.' :: digits => (readDigits use digits).map (·.widen (Nat.le_succ _))
  | other => .ok ⟨[], other, Nat.le_refl _⟩

/-- Reads the sign and the digits of an exponent, if there is one. -/
def readExponent (use : Use) (text : List Char) : Reading (Option (Bool × List Char)) text :=
  match text with
  | [] => .ok ⟨none, [], Nat.le_refl _⟩
  | c :: rest =>
    if c = 'e' ∨ c = 'E' then
      match rest with
      | '-' :: digits => (readDigits use digits).map fun r =>
        ⟨some (true, r.value), r.rest, by have := r.le; simp; omega⟩
      | '+' :: digits => (readDigits use digits).map fun r =>
        ⟨some (false, r.value), r.rest, by have := r.le; simp; omega⟩
      | digits => (readDigits use digits).map fun r =>
        ⟨some (false, r.value), r.rest, by have := r.le; simp; omega⟩
    else
      .ok ⟨none, c :: rest, Nat.le_refl _⟩

/-- Reads a number after its sign. -/
def readUnsigned (use : Use) (negative : Bool) (text : List Char) : Reading Number text := do
  let whole ← readWhole use text
  let fraction ← readFraction use whole.rest
  let exponent ← readExponent use fraction.rest
  return ⟨⟨negative, whole.value, fraction.value, exponent.value⟩, exponent.rest,
    Nat.le_trans exponent.le (Nat.le_trans fraction.le whole.le)⟩

def readNumber (use : Use) (text : List Char) : Reading Number text :=
  match text with
  | '-' :: rest => (readUnsigned use true rest).map (·.widen (Nat.le_succ _))
  | other => readUnsigned use false other

end Drumline.Json
