/-!
# Statement kinds

A statement is of the kind of its dialect once its first token is read, and unknown
before. The kind decides which characters besides letters belong to identifiers.
-/

namespace SqlBoundary

inductive StatementKind
  | unknown
  | generic
  | mysql
  | postgresql
  | oracle
  | sqlserver
deriving DecidableEq

namespace StatementKind

instance : Inhabited StatementKind := ⟨unknown⟩

def all : List StatementKind := [unknown, generic, mysql, postgresql, oracle, sqlserver]

def name : StatementKind → String
  | unknown => "unknown"
  | generic => "generic"
  | mysql => "mysql"
  | postgresql => "postgresql"
  | oracle => "oracle"
  | sqlserver => "sqlserver"

def ofName? (s : String) : Option StatementKind := all.find? (·.name == s)

/-- The characters that count as letters without being alphabetic. -/
def extraLetters : StatementKind → List Char
  | unknown => []
  | generic => []
  | mysql => ['$']
  | postgresql => ['$']
  | oracle => ['$', '#']
  | sqlserver => ['@', '#', '$']

def admits (kind : StatementKind) (c : Char) : Bool := kind.extraLetters.contains c

end StatementKind

end SqlBoundary
