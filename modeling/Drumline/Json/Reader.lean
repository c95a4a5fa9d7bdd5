import Drumline.Json.Basic
import Drumline.Json.Read

/-! Reading JSON documents.  `readValue` reads one value from the left of a text, at any depth of
nesting, and `parse` reads a text that is one value with blanks around it. -/

namespace Drumline.Json

/-- The text of a number that was read from `text`. -/
def Read.written {α : Type} {text : List Char} (r : Read α text) : List Char :=
  text.take (text.length - r.rest.length)

/-- Reads a value that is neither an array nor an object. -/
def readScalar (use : Use) {text : List Char} (first : Next text) : Reading Json text :=
  match first.char with
  | 'n' => (readWord ['u', 'l', 'l'] first.rest).map fun r =>
    ⟨.null, r.rest, first.le_read r⟩
  | 't' => (readWord ['r', 'u', 'e'] first.rest).map fun r =>
    ⟨.bool true, r.rest, first.le_read r⟩
  | 'f' => (readWord ['a', 'l', 's', 'e'] first.rest).map fun r =>
    ⟨.bool false, r.rest, first.le_read r⟩
  | '"' => (readString use first.rest).map fun r =>
    ⟨.str r.value, r.rest, first.le_read r⟩
  | c =>
    if c.isDigit || c == '-' then
      (readNumber use first.place).map fun r => ⟨.num r.written, r.rest, Nat.le_trans r.le first.lt⟩
    else
      .error (.upon .valueExpected first.place)

def readKey (use : Use) (text : List Char) : Reading (List Char) text :=
  match next? text with
  | none => .error (.atEnd .endInObject)
  | some first =>
    if first.char = '"' then
      (readString use first.rest).map (·.widen first.le)
    else
      .error (.upon .keyExpected first.place)

def readColon (text : List Char) : Reading Unit text :=
  match next? text with
  | none => .error (.atEnd .endInObject)
  | some first =>
    if first.char = ':' then .ok ⟨(), first.rest, first.le⟩
    else .error (.upon .colonExpected first.place)

mutual

def readValue (use : Use) (text : List Char) : Reading Json text :=
  match next? text with
  | none => .error (.atEnd .endInValue)
  | some first =>
    if first.char = '[' then
      match next? first.rest with
      | none => .error (.atEnd .endInArray)
      | some second =>
        if second.char = ']' then
          .ok ⟨.arr [], second.rest, Nat.le_of_lt (Nat.lt_trans second.lt first.lt)⟩
        else
          (readItems use first.rest).map fun r =>
            ⟨.arr r.value, r.rest, first.le_read r⟩
    else if first.char = '\x7b' then
      match next? first.rest with
      | none => .error (.atEnd .endInObject)
      | some second =>
        if second.char = '\x7d' then
          .ok ⟨.obj [], second.rest, Nat.le_of_lt (Nat.lt_trans second.lt first.lt)⟩
        else
          (readFields use first.rest).map fun r =>
            ⟨.obj r.value, r.rest, first.le_read r⟩
    else
      readScalar use first
  termination_by (text.length, 0)
  decreasing_by
    · exact Prod.Lex.left _ _ first.lt
    · exact Prod.Lex.left _ _ first.lt

/-- Reads the items of an array, at least one, and the bracket after them. -/
def readItems (use : Use) (text : List Char) : Reading (List Json) text := do
  let item ← readValue use text
  match next? item.rest with
  | none => .error (.atEnd .endInArray)
  | some mark =>
    if mark.char = ',' then
      (readItems use mark.rest).map fun r =>
        ⟨item.value :: r.value, r.rest, by have := item.le; have := mark.lt; have := r.le; omega⟩
    else if mark.char = ']' then
      .ok ⟨[item.value], mark.rest, by have := item.le; have := mark.lt; omega⟩
    else
      .error (.upon .commaOrBracketExpected mark.place)
  termination_by (text.length, 1)
  decreasing_by
    · exact Prod.Lex.right _ Nat.zero_lt_one
    · exact Prod.Lex.left _ _ (Nat.lt_of_lt_of_le mark.lt item.le)

/-- Reads the fields of an object, at least one, and the brace after them. -/
def readFields (use : Use) (text : List Char) : Reading (List (List Char × Json)) text := do
  let key ← readKey use text
  let colon ← readColon key.rest
  let value ← readValue use colon.rest
  match next? value.rest with
  | none => .error (.atEnd .endInObject)
  | some mark =>
    if mark.char = ',' then
      (readFields use mark.rest).map fun r =>
        ⟨(key.value, value.value) :: r.value, r.rest, by
          have := key.le; have := colon.le; have := value.le; have := mark.lt; have := r.le
          omega⟩
    else if mark.char = '\x7d' then
      .ok ⟨[(key.value, value.value)], mark.rest, by
        have := key.le; have := colon.le; have := value.le; have := mark.lt
        omega⟩
    else
      .error (.upon .commaOrBraceExpected mark.place)
  termination_by (text.length, 1)
  decreasing_by
    · have h := Nat.le_trans colon.le key.le
      rcases Nat.lt_or_eq_of_le h with h | h
      · exact Prod.Lex.left _ _ h
      · rw [h]
        exact Prod.Lex.right _ Nat.zero_lt_one
    · exact Prod.Lex.left _ _
        (Nat.lt_of_lt_of_le mark.lt (Nat.le_trans value.le (Nat.le_trans colon.le key.le)))

end

/-- Only blanks follow. -/
def expectEnd (text : List Char) : Except Fault Unit :=
  match next? text with
  | none => .ok ()
  | some first => .error (.upon .trailingCharacters first.place)

def parse (text : List Char) : Except Fault Json := do
  let document ← readValue .kept text
  expectEnd document.rest
  return document.value

end Drumline.Json
