import SqlBoundary.Json.Basic

/-!
# Writing JSON

Two layouts of the same document: on one line without blanks, and with each item and
field on a line of its own, indented by two spaces for each level.
-/

namespace SqlBoundary.Json

def boolText (value : Bool) : List Char := if value then "true".toList else "false".toList

def quoted (spelling : List Char) : List Char := '"' :: spelling ++ ['"']

mutual

/-- The document on one line. -/
def compact : Json → List Char
  | .null => "null".toList
  | .bool value => boolText value
  | .number spelling => spelling
  | .string spelling => quoted spelling
  | .array items => '[' :: compactItems items ++ [']']
  | .object fields => '{' :: compactFields fields ++ ['}']

def compactItems : List Json → List Char
  | [] => []
  | item :: rest =>
    compact item ++ if rest.isEmpty then [] else ',' :: compactItems rest

def compactFields : List (List Char × Json) → List Char
  | [] => []
  | (name, value) :: rest =>
    quoted name ++ ':' :: compact value ++
      if rest.isEmpty then [] else ',' :: compactFields rest

end

/-- A new line at a level of indentation. -/
def newLine (level : Nat) : List Char := '\n' :: List.replicate (2 * level) ' '

mutual

/-- The document on several lines; empty arrays and objects stay on one. -/
def indented (level : Nat) : Json → List Char
  | .null => "null".toList
  | .bool value => boolText value
  | .number spelling => spelling
  | .string spelling => quoted spelling
  | .array items =>
    if items.isEmpty then "[]".toList
    else '[' :: indentedItems (level + 1) items ++ newLine level ++ [']']
  | .object fields =>
    if fields.isEmpty then ['{', '}']
    else '{' :: indentedFields (level + 1) fields ++ newLine level ++ ['}']

def indentedItems (level : Nat) : List Json → List Char
  | [] => []
  | item :: rest =>
    newLine level ++ indented level item ++
      if rest.isEmpty then [] else ',' :: indentedItems level rest

def indentedFields (level : Nat) : List (List Char × Json) → List Char
  | [] => []
  | (name, value) :: rest =>
    newLine level ++ quoted name ++ ':' :: ' ' :: indented level value ++
      if rest.isEmpty then [] else ',' :: indentedFields level rest

end

end SqlBoundary.Json
