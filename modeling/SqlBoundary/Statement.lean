import SqlBoundary.Delimiter

/-!
# Statements and warnings

The pieces of a script that are executed one at a time. A statement's text is the part
of the script from `start` to `stop`, both counted in bytes; neither the delimiter nor
blanks before it belong to it. A warning tells of a block that may be closed wrongly, and
changes nothing.
-/

namespace SqlBoundary

structure Statement where
  /-- The line on which the statement starts, counted from one. -/
  line : Nat
  start : Nat
  stop : Nat
  sql : String
  /-- The delimiter in effect where the statement ends. -/
  delimiter : Delimiter
deriving DecidableEq

/-- An `END` that names another kind of block than the one it closes. -/
structure Warning where
  line : Nat
  /-- The kind of block named after the `END`. -/
  named : String
  /-- The word that opened the block. -/
  closed : String
deriving DecidableEq

def Warning.message (w : Warning) : String :=
  "END " ++ w.named ++ " closes a block opened by " ++ w.closed

end SqlBoundary
