import SqlBoundary.Session.Basic

/-!
# Between tokens

Blanks, comments and delimiters. A delimiter ends the statement only outside blocks; an
inline one only outside parentheses as well. Between two statements a line may hold the
dialect's standalone terminator, which is passed over.
-/

namespace SqlBoundary

open Text

inductive Gap
  | blank
  | delimiter (length : Nat)
  | terminator (length : Nat)
  | comment (extent : Extent)
deriving DecidableEq

namespace Session

/-- The characters of the active delimiter ahead, if it ends a statement here. -/
def delimiterLength? (s : Session) : Option Nat :=
  let d := s.context.delimiter
  if s.context.blockDepth != 0 then none
  else if d.aloneOnLine then
    if s.cursor.atLineOf d then some (lineLength s.cursor.ahead) else none
  else if s.context.parens ≤ 0 && d.startsAt s.cursor.ahead then some d.text.toList.length
  else none

def atTerminator (s : Session) : Bool := s.dialect.standaloneTerminator.any s.cursor.atLineOf

/-- What stands between tokens ahead, where the next character is `c`. -/
def gap? (s : Session) (draft : Option Draft) (c : Char) : Option Gap :=
  if isBlank c then some .blank
  else match s.delimiterLength? with
    | some n => some (.delimiter n)
    | none =>
      if draft.isNone && s.atTerminator then some (.terminator (lineLength s.cursor.ahead))
      else (s.dialect.comment? s.cursor.ahead).map .comment

/-- Passes a text with an opening and a closing mark. -/
def passText (s : Session) (extent : Extent) (draft : Option Draft) : Pass :=
  match extent with
  | .closed n => .more (s.skip n) draft
  | .unclosed construct n => .failed (s.skip n) (.unterminated construct s.line)

def passGap (s : Session) (draft : Option Draft) : Gap → Pass
  | .blank => .more (s.skip 1) draft
  | .delimiter n =>
    match (s.skip n).endStatement draft s.cursor with
    | (s, some statement) => .found s statement
    | (s, none) => .more s none
  | .terminator n => .more (s.skip n) draft
  | .comment extent => s.passText extent draft

end Session

end SqlBoundary
