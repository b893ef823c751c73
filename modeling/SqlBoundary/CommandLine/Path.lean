/-!
# Paths

Two spellings of a path are the same if they name the same parts from the same place. An
empty part and a part `.` mean nothing, so that a slash may be doubled or stand at the
end; only the first part always counts, where `.` starts from the current directory and
an empty one from the root. Nothing is looked up: a part `..` is a name like any other.
-/

namespace SqlBoundary.CommandLine.Path

/-- What stands between the slashes of a path. -/
def segments : List Char → List (List Char)
  | [] => [[]]
  | c :: rest =>
    if c == '/' then [] :: segments rest
    else
      match segments rest with
      | [] => [[c]]
      | first :: others => (c :: first) :: others

/-- Whether a part after the first names anything. -/
def isNamed (segment : List Char) : Bool := segment != [] && segment != ['.']

/-- The parts of a path that count. -/
def parts (path : List Char) : List (List Char) :=
  match segments path with
  | [] => []
  | first :: others => first :: others.filter isNamed

def same (a b : String) : Bool := parts a.toList == parts b.toList

end SqlBoundary.CommandLine.Path
