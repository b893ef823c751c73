import SqlBoundary.Json.Literal

/-!
# JSON documents

Strings and numbers are kept as they are written, since a document may hold some that
nobody asks for and that stand for no text or number of ours. Fields keep their order,
and a name may occur more than once.
-/

namespace SqlBoundary

inductive Json
  | null
  | bool (value : Bool)
  | number (spelling : List Char)
  | string (spelling : List Char)
  | array (items : List Json)
  | object (fields : List (List Char × Json))

namespace Json

def ofString (s : String) : Json := .string (Literal.encode s.toList)

def ofNat (n : Nat) : Json := .number (toString n).toList

def field (name : String) (value : Json) : List Char × Json := (Literal.encode name.toList, value)

/-- The text of a string, if it stands for one. -/
def toString? : Json → Option String
  | .string spelling => (Literal.decode? spelling).map String.ofList
  | _ => none

def toBool? : Json → Option Bool
  | .bool value => some value
  | _ => none

/-- Fields by name, if every name stands for a text. -/
def named? : List (List Char × Json) → Option (List (String × Json))
  | [] => some []
  | (name, value) :: rest => do
    return (String.ofList (← Literal.decode? name), value) :: (← named? rest)

end Json

end SqlBoundary
