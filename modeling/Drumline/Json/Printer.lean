import Drumline.Json.Basic
import Drumline.Text.CodePoint

/-! Writing JSON documents.  Each item of an array and each field of an object has a line of its
own, two spaces deeper than its container; an empty container is written without a line break. -/

namespace Drumline.Json

/-- A character of a string as it is written: quotes, backslashes and control characters are
escaped. -/
def escape (c : Char) : List Char :=
  if c = '"' then ['\\', '"']
  else if c = '\\' then ['\\', '\\']
  else if c = '\x08' then ['\\', 'b']
  else if c = '\t' then ['\\', 't']
  else if c = '\n' then ['\\', 'n']
  else if c = '\x0c' then ['\\', 'f']
  else if c = '\r' then ['\\', 'r']
  else if c.toNat < 32 then '\\' :: 'u' :: Text.hexDigits 4 c
  else [c]

def quote (s : List Char) : List Char := '"' :: s.flatMap escape ++ ['"']

/-- A line break and the indentation of a line that is `depth` containers deep. -/
def newline (depth : Nat) : List Char := '\n' :: List.replicate (2 * depth) ' '

mutual

/-- The document, as it is written `depth` containers deep. -/
def renderAt (depth : Nat) : Json → List Char
  | null => "null".toList
  | bool true => "true".toList
  | bool false => "false".toList
  | num text => text
  | str s => quote s
  | arr [] => ['[', ']']
  | arr (item :: items) =>
    '[' :: newline (depth + 1) ++ renderAt (depth + 1) item ++ renderItems (depth + 1) items ++
      newline depth ++ [']']
  | obj [] => ['{', '}']
  | obj ((key, value) :: fields) =>
    '{' :: newline (depth + 1) ++ quote key ++ ':' :: ' ' :: renderAt (depth + 1) value ++
      renderFields (depth + 1) fields ++ newline depth ++ ['}']

/-- The items of an array after its first one. -/
def renderItems (depth : Nat) : List Json → List Char
  | [] => []
  | item :: items => ',' :: newline depth ++ renderAt depth item ++ renderItems depth items

/-- The fields of an object after its first one. -/
def renderFields (depth : Nat) : List (List Char × Json) → List Char
  | [] => []
  | (key, value) :: fields =>
    ',' :: newline depth ++ quote key ++ ':' :: ' ' :: renderAt depth value ++
      renderFields depth fields

end

def render (document : Json) : List Char := renderAt 0 document

end Drumline.Json
