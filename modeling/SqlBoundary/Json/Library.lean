/-!
# JSON libraries

A library for JSON has documents of its own. It prints and parses them, makes them of null, truth
values, texts and objects, and takes them apart again. An object keeps its fields in order, and a name
may occur in it more than once.
-/

namespace SqlBoundary.Json

structure Library where
  Document : Type
  null : Document
  bool : Bool → Document
  string : String → Document
  object : List (String × Document) → Document
  isNull : Document → Bool
  toBool? : Document → Option Bool
  toString? : Document → Option String
  print : Document → String
  parse? : String → Option Document

/-- Whether a name occurs at most once. -/
def unrepeated {α : Type} (name : String) (fields : List (String × α)) : Bool :=
  (fields.filter (·.1 == name)).length ≤ 1

end SqlBoundary.Json
