import Drumline.Json.Number
import Drumline.Json.Reader
import Drumline.Options

/-! Reading the conversion options from a JSON text.  The options are an object, in which each may
be left out and other fields are skipped, or an array of at most two truth values.  The text is read
from the left, and the first fault ends it. -/

namespace Drumline.Config

open Json

/-- The name of the field that asks for the deletion of volume commands. -/
def volumeField : List Char := "strip_volume".toList

/-- The name of the field that asks for the deletion of tempo commands. -/
def tempoField : List Char := "strip_tempo".toList

structure Fields where
  volume : Option Bool
  tempo : Option Bool

/-- A field that is left out is off. -/
def Fields.options (f : Fields) : Options := ⟨f.volume.getD false, f.tempo.getD false⟩

/-- The fault of a value that is not of the expected type: what is wrong with the value itself, if
anything is, and that it is found here, otherwise. -/
def mismatch {text : List Char} (first : Next text) (expected : List Char) : Fault :=
  let report (found : Found) (rest : List Char) : Fault :=
    .before (.wrongType found expected) rest
  let word (found : Found) (letters : List Char) : Fault :=
    match readWord letters first.rest with
    | .ok r => report found r.rest
    | .error fault => fault
  match first.char with
  | 'n' => word .null ['u', 'l', 'l']
  | 't' => word (.bool true) ['r', 'u', 'e']
  | 'f' => word (.bool false) ['a', 'l', 's', 'e']
  | '"' =>
    match readString .kept first.rest with
    | .ok r => report (.str r.value) r.rest
    | .error fault => fault
  | '[' => report .array first.place
  | '\x7b' => report .object first.place
  | c =>
    if c.isDigit || c == '-' then
      match readNumber .kept first.place with
      | .ok r =>
        match r.value.found with
        | .ok found => report found r.rest
        | .error unread => .before .numberOutOfRange (unread ++ r.rest)
      | .error fault => fault
    else
      .upon .valueExpected first.place

def readBool (text : List Char) : Reading Bool text :=
  match next? text with
  | none => .error (.atEnd .endInValue)
  | some first =>
    if first.char = 't' then
      (readWord ['r', 'u', 'e'] first.rest).map fun r =>
        ⟨true, r.rest, first.le_read r⟩
    else if first.char = 'f' then
      (readWord ['a', 'l', 's', 'e'] first.rest).map fun r =>
        ⟨false, r.rest, first.le_read r⟩
    else
      .error (mismatch first "a boolean".toList)

/-! ### Objects -/

/-- A field that is given again is reported after the blanks that follow its key, and after the
brace that follows them. -/
def repeated (name rest : List Char) : Fault :=
  match next? rest with
  | none => .atEnd (.repeatedField name)
  | some mark =>
    .before (.repeatedField name) (if mark.char = '\x7d' then mark.rest else mark.place)

def readField (fields : Fields) (key text : List Char) : Reading Fields text :=
  if key = volumeField then
    if fields.volume.isSome then .error (repeated key text)
    else do
      let colon ← readColon text
      let value ← readBool colon.rest
      return ⟨{ fields with volume := value.value }, value.rest, Nat.le_trans value.le colon.le⟩
  else if key = tempoField then
    if fields.tempo.isSome then .error (repeated key text)
    else do
      let colon ← readColon text
      let value ← readBool colon.rest
      return ⟨{ fields with tempo := value.value }, value.rest, Nat.le_trans value.le colon.le⟩
  else do
    let colon ← readColon text
    let value ← readValue .skipped colon.rest
    return ⟨fields, value.rest, Nat.le_trans value.le colon.le⟩

/-- The opening quote of the key that has to follow a comma. -/
def keyAfterComma (text : List Char) : Except Fault (Next text) :=
  match next? text with
  | none => .error (.atEnd .endInValue)
  | some first =>
    if first.char = '"' then .ok first
    else if first.char = '\x7d' then .error (.upon .trailingComma first.place)
    else .error (.upon .keyExpected first.place)

def readFields (fields : Fields) (text : List Char) : Reading Fields text := do
  let key ← readString .kept text
  let field ← readField fields key.value key.rest
  match next? field.rest with
  | none => .error (.atEnd .endInObject)
  | some mark =>
    if mark.char = '\x7d' then
      .ok ⟨field.value, mark.rest, by have := key.le; have := field.le; have := mark.lt; omega⟩
    else if mark.char = ',' then do
      let quote ← keyAfterComma mark.rest
      (readFields field.value quote.rest).map fun r => ⟨r.value, r.rest, by
        have := key.le; have := field.le; have := mark.lt; have := quote.lt; have := r.le
        omega⟩
    else
      .error (.upon .commaOrBraceExpected mark.place)
  termination_by text.length
  decreasing_by
    have := key.le
    have := field.le
    have := mark.lt
    have := quote.lt
    omega

def readObject (text : List Char) : Reading Options text :=
  match next? text with
  | none => .error (.atEnd .endInObject)
  | some first =>
    if first.char = '\x7d' then
      .ok ⟨{}, first.rest, first.le⟩
    else if first.char = '"' then
      (readFields ⟨none, none⟩ first.rest).map fun r =>
        ⟨r.value.options, r.rest, first.le_read r⟩
    else
      .error (.upon .keyExpected first.place)

/-! ### Arrays -/

/-- Reads the end of an array that has both its values. -/
def readArrayEnd (text : List Char) : Reading Unit text :=
  match next? text with
  | none => .error (.atEnd .endInArray)
  | some mark =>
    if mark.char = ']' then
      .ok ⟨(), mark.rest, mark.le⟩
    else if mark.char = ',' then
      match next? mark.rest with
      | none => .error (.atEnd .trailingCharacters)
      | some other =>
        if other.char = ']' then .error (.upon .trailingComma other.place)
        else .error (.upon .trailingCharacters other.place)
    else
      .error (.upon .trailingCharacters mark.place)

/-- Reads the second value of an array, or its end. -/
def readSecond (text : List Char) : Reading (Option Bool) text :=
  match next? text with
  | none => .error (.atEnd .endInArray)
  | some mark =>
    if mark.char = ']' then
      .ok ⟨none, mark.rest, mark.le⟩
    else if mark.char = ',' then
      match next? mark.rest with
      | none => .error (.atEnd .endInValue)
      | some other =>
        if other.char = ']' then
          .error (.upon .trailingComma other.place)
        else do
          let value ← readBool mark.rest
          let close ← readArrayEnd value.rest
          return ⟨some value.value, close.rest, by
            have := mark.lt; have := value.le; have := close.le; omega⟩
    else
      .error (.upon .commaOrBracketExpected mark.place)

/-- Reads an array after its opening bracket: first whether volume commands are deleted, then
whether tempo commands are. -/
def readArray (text : List Char) : Reading Options text :=
  match next? text with
  | none => .error (.atEnd .endInArray)
  | some first =>
    if first.char = ']' then
      .ok ⟨{}, first.rest, first.le⟩
    else do
      let volume ← readBool text
      let tempo ← readSecond volume.rest
      return ⟨⟨volume.value, tempo.value.getD false⟩, tempo.rest,
        Nat.le_trans tempo.le volume.le⟩

/-! ### Options -/

def readOptions (text : List Char) : Reading Options text :=
  match next? text with
  | none => .error (.atEnd .endInValue)
  | some first =>
    if first.char = '[' then (readArray first.rest).map (·.widen first.le)
    else if first.char = '\x7b' then (readObject first.rest).map (·.widen first.le)
    else .error (mismatch first "struct ConvertOptions".toList)

def parse (text : List Char) : Except Fault Options := do
  let options ← readOptions text
  expectEnd options.rest
  return options.value

end Drumline.Config
