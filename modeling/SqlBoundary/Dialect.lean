import SqlBoundary.Blocks

/-!
# Dialects

What a database reads as quotes, comments and delimiters. A dialect is a record of
switches; `plain` is the one from which the others differ, and the kind of its
statements is unknown.
-/

namespace SqlBoundary

structure Dialect where
  name : String
  kind : StatementKind
  /-- The delimiter a script starts with. -/
  defaultDelimiter : Delimiter
  /-- Characters that open and close string literals. -/
  stringQuotes : List Char
  /-- Opening and closing characters of quoted identifiers. -/
  identifierQuotes : List (Char × Char)
  /-- A backslash in a string literal escapes the character after it. -/
  backslashEscapes : Bool
  /-- An `E` before a string literal makes backslashes escape in it. -/
  escapeStrings : Bool
  /-- A hash starts a comment that ends with the line. -/
  hashComments : Bool
  /-- Texts between two equal dollar tags are string literals. -/
  dollarQuotes : Bool
  /-- Lines that begin with `DELIMITER` change the delimiter. -/
  delimiterDirective : Bool
  /-- An `END` that begins a statement outside any block ends a transaction. -/
  standaloneEnd : Bool
  /-- A text that may fill a line between statements and is passed over there. -/
  standaloneTerminator : Option Delimiter
  blocks : BlockGrammar
deriving DecidableEq

namespace Dialect

def plain : Dialect where
  name := "plain"
  kind := .unknown
  defaultDelimiter := .semicolon
  stringQuotes := ['\'']
  identifierQuotes := [('"', '"')]
  backslashEscapes := false
  escapeStrings := false
  hashComments := false
  dollarQuotes := false
  delimiterDirective := false
  standaloneEnd := false
  standaloneTerminator := none
  blocks := .common

def generic : Dialect :=
  { plain with name := "generic", kind := .generic, standaloneEnd := true }

def mysql : Dialect :=
  { plain with
    name := "mysql"
    kind := .mysql
    stringQuotes := ['\'', '"']
    identifierQuotes := [('\x60', '\x60')]
    backslashEscapes := true
    hashComments := true
    delimiterDirective := true
    blocks := .mysql }

def postgres : Dialect :=
  { plain with
    name := "postgresql"
    kind := .postgresql
    escapeStrings := true
    dollarQuotes := true
    standaloneEnd := true }

def oracle : Dialect :=
  { plain with
    name := "oracle"
    kind := .oracle
    standaloneTerminator := some .slash
    blocks := .oracle }

def sqlserver : Dialect :=
  { plain with
    name := "sqlserver"
    kind := .sqlserver
    defaultDelimiter := .go
    identifierQuotes := [('[', ']'), ('"', '"')] }

/-- The closing character of a quoted identifier opened by `c`. -/
def identifierClose? (d : Dialect) (c : Char) : Option Char :=
  (d.identifierQuotes.find? (·.1 == c)).map (·.2)

end Dialect

end SqlBoundary
