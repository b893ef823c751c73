import SqlBoundary.Cursor
import SqlBoundary.Dialect.Token
import SqlBoundary.Statement

/-!
# Sessions

The state of reading a script one statement after another. What has been read of the
current statement is a draft; it begins with the statement's first token, and blanks,
comments and delimiters before that leave no trace.

The active delimiter, in the context, may be one that the current statement has taken
from the words it begins with. The script's own delimiter is kept beside it and put back
when a statement ends.
-/

namespace SqlBoundary

structure Session where
  dialect : Dialect
  cursor : Cursor
  context : Context
  /-- The starting delimiter, or that of the last directive. -/
  scriptDelimiter : Delimiter
  /-- In the order in which they arose. -/
  warnings : List Warning
  /-- Set once iteration has met the end of the script or a fault. -/
  exhausted : Bool
deriving DecidableEq

structure Draft where
  /-- The place of the statement's first token. -/
  start : Cursor
  /-- The words the statement begins with. -/
  leading : List String
  /-- The last word read. -/
  previous : Option String
  /-- Whether a procedural statement may begin here. -/
  clauseStart : Bool
deriving DecidableEq

/-- What one pass over the text ahead leads to. -/
inductive Pass
  | more (s : Session) (draft : Option Draft)
  | found (s : Session) (statement : Statement)
  | finished (s : Session)
  | failed (s : Session) (fault : Fault)
deriving DecidableEq

namespace Draft

def begin (start : Cursor) : Draft := ⟨start, [], none, true⟩

/-- How many words a statement is classified by. -/
def leadingWords : Nat := 8

/-- Words after which a procedural statement may begin. -/
def clauseOpeners : List String := ["BEGIN", "THEN", "ELSE", "DO", "LOOP", "REPEAT"]

def afterText (draft : Draft) : Draft := { draft with clauseStart := false }

/-- A colon that is not part of `:=` or `::` ends a label; `rest` is what follows. -/
def afterSymbol (draft : Draft) (c : Char) (rest : List Char) : Draft :=
  { draft with
    clauseStart := c == ';' ||
      (c == ':' && rest.head? != some '=' && rest.head? != some ':') }

def afterWord (draft : Draft) (word : String) : Draft :=
  { draft with
    leading := if draft.leading.length < leadingWords then draft.leading ++ [word]
      else draft.leading
    previous := some word
    clauseStart := clauseOpeners.contains word }

end Draft

namespace Session

/-- A session at the start of a script. -/
def ofScript (dialect : Dialect) (delimiter : Delimiter) (script : String) : Session where
  dialect := dialect
  cursor := .start script.toList
  context := .start delimiter
  scriptDelimiter := delimiter
  warnings := []
  exhausted := false

def skip (s : Session) (n : Nat) : Session := { s with cursor := s.cursor.skip n }

/-- The line at which the next character stands. -/
def line (s : Session) : Nat := s.cursor.line

/-- Ends the statement before `stop`: its text is cut out, and the script's delimiter is
active again. Without a draft there is no statement. -/
def endStatement (s : Session) (draft : Option Draft) (stop : Cursor) : Session × Option Statement :=
  let statement := draft.map fun draft =>
    let sql := Text.trimEnd (draft.start.upTo stop)
    { line := draft.start.line
      start := draft.start.offset
      stop := draft.start.offset + Text.byteSize sql
      sql := String.ofList sql
      delimiter := s.context.delimiter : Statement }
  ({ s with context := s.context.setDelimiter s.scriptDelimiter }, statement)

end Session

end SqlBoundary
