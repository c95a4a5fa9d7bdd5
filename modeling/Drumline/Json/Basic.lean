/-! JSON documents. -/

namespace Drumline

/-- A JSON document.  A number is kept as it is written, and the fields of an object are in the
order in which they are written. -/
inductive Json where
  | null
  | bool (b : Bool)
  | num (text : List Char)
  | str (s : List Char)
  | arr (items : List Json)
  | obj (fields : List (List Char × Json))

end Drumline
