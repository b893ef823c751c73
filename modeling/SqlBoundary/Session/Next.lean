import SqlBoundary.Session.Gap
import SqlBoundary.Session.Word

/-!
# The next statement

A script is read in passes, each over one token or one gap between tokens. Passes are
repeated until a statement, the end of the script or a fault is met. Their number is
bounded by the characters ahead, as a pass that does not end the reading takes one at
least; the one exception is the fault `stalled`.

After a fault a session can be used again: it goes on from where the fault was met, with
the blocks, parentheses and active delimiter it then had, and without a draft.
-/

namespace SqlBoundary

namespace Session

/-- Counts a parenthesis; closing ones never beyond those open. -/
def countParen (s : Session) (c : Char) : Session :=
  if c == '(' then { s with context := s.context.openParen }
  else if c == ')' && s.context.parens > 0 then { s with context := s.context.closeParen }
  else s

/-- Reads the token that begins with `c`. -/
def readToken (s : Session) (draft : Draft) (c : Char) (rest : List Char) : Pass :=
  match s.dialect.token s.context.startsWord c rest with
  | .text extent => s.passText extent (some draft.afterText)
  | .word => s.readWord draft
  | .symbol c => .more ((s.skip 1).countParen c) (some (draft.afterSymbol c rest))

/-- The draft to read on with. A new one begins here, and gives the statement its kind. -/
def begin (s : Session) : Option Draft → Except Fault (Session × Draft)
  | some draft => .ok (s, draft)
  | none =>
    match s.context.setKind s.dialect.kind with
    | .ok context => .ok ({ s with context := context }, .begin s.cursor)
    | .error fault => .error (.atLine s.line fault)

/-- At the end of the script the last statement needs no delimiter, but every block has
to be closed. -/
def finish (s : Session) (draft : Option Draft) : Pass :=
  if s.context.blockDepth != 0 then
    .failed s (.unclosedBlock s.context.innermost ((draft.map (·.start.line)).getD 0))
  else
    match s.endStatement draft s.cursor with
    | (s, some statement) => .found s statement
    | (s, none) => .finished s

/-- One pass: the end of the script, a gap or a token. -/
def pass (s : Session) (draft : Option Draft) : Pass :=
  match s.cursor.ahead with
  | [] => s.finish draft
  | c :: rest =>
    match s.gap? draft c with
    | some gap => s.passGap draft gap
    | none =>
      match s.begin draft with
      | .ok (t, draft) => t.readToken draft c rest
      | .error fault => .failed s fault

/-- Passes until one decides; `bound` holds a character for each pass but the last. -/
def run : List Char → Session → Option Draft → Session × Except Fault (Option Statement)
  | bound, s, draft =>
    match s.pass draft with
    | .found s statement => (s, .ok (some statement))
    | .finished s => (s, .ok none)
    | .failed s fault => (s, .error fault)
    | .more s draft =>
      match bound with
      | [] => (s, .error (.stalled s.line))
      | _ :: bound => run bound s draft

/-- The next statement, or `none` at the end of the script. -/
def next (s : Session) : Session × Except Fault (Option Statement) :=
  run s.cursor.ahead s none

/-- The next statement, until the end of the script or a fault has been met: from then
on there is none. -/
def iterate (s : Session) : Session × Except Fault (Option Statement) :=
  if s.exhausted then (s, .ok none)
  else match s.next with
    | (s, .ok (some statement)) => (s, .ok (some statement))
    | (s, result) => ({ s with exhausted := true }, result)

/-- Iterates to the end, with the statements already found in reverse order. A statement
takes up a character at least, which `bound` counts. -/
def gather : List Char → List Statement → Session → Session × Except Fault (List Statement)
  | bound, found, s =>
    match s.iterate with
    | (s, .ok none) => (s, .ok found.reverse)
    | (s, .error fault) => (s, .error fault)
    | (s, .ok (some statement)) =>
      match bound with
      | [] => (s, .error (.stalled s.line))
      | _ :: bound => gather bound (statement :: found) s

/-- All statements from here on; those before a fault are not given. -/
def remaining (s : Session) : Session × Except Fault (List Statement) :=
  gather s.cursor.ahead [] s

end Session

end SqlBoundary
