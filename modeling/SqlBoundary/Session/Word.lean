import SqlBoundary.Session.Basic

/-!
# Reading a word

A word may be a `DELIMITER` directive, may open a block, and as `END` closes one. The
first words of a statement may also change the active delimiter.
-/

namespace SqlBoundary

open Text

namespace Session

/-- The kinds of block that may be named after an `END`. -/
def blockNames : List String := ["IF", "CASE", "LOOP", "WHILE", "REPEAT"]

/-- The warning due if the token after an `END` names a kind of block. -/
def mismatch? (s : Session) (closed : String) (next : Option String) : Option Warning :=
  match next with
  | some named =>
    if blockNames.contains named && named != closed then some ⟨s.line, named, closed⟩ else none
  | none => none

/-- Closes the innermost block, and the one around it if both share this `END`. An `END`
that stands alone outside any block closes nothing. -/
def closeBlock (s : Session) (draft : Draft) (next : Option String) : Except Fault Session :=
  if s.context.blockDepth == 0 && draft.leading.isEmpty && s.dialect.standaloneEnd then .ok s
  else do
    let (closed, context) ← s.context.closeBlock
    let warnings := s.warnings ++ (s.mismatch? closed next).toList
    if s.dialect.blocks.closesEnclosing closed context then
      let (_, context) ← context.closeBlock
      return { s with context := context, warnings := warnings }
    else return { s with context := context, warnings := warnings }

/-- Opens a block if the word does that. -/
def openBlock (s : Session) (draft : Draft) (text : String) (next : Option String) : Session :=
  let word : Word :=
    { text := text
      previous := draft.previous
      next := next
      leading := draft.leading
      clauseStart := draft.clauseStart
      ahead := s.cursor.ahead }
  if s.dialect.blocks.opens word s.context then
    { s with context := s.context.openBlock text }
  else s

/-- Makes the delimiter active that the statement takes from its first words, now that
they are `draft.leading` and one more. -/
def classify (s : Session) (draft : Draft) (text : String) : Session :=
  if draft.leading.length < Draft.leadingWords then
    match s.dialect.blocks.statementDelimiter? (draft.leading ++ [text]) with
    | some d => { s with context := s.context.setDelimiter d }
    | none => s
  else s

/-- Takes a word that the cursor has passed into the draft. -/
def takeWord (s : Session) (draft : Draft) (text : String) : Pass :=
  let next := s.context.tokenAhead? s.cursor.ahead
  if text == "END" then
    match s.closeBlock draft next with
    | .ok t => .more (t.classify draft text) (some (draft.afterWord text))
    | .error fault => .failed s (.atLine s.line fault)
  else
    .more ((s.openBlock draft text next).classify draft text) (some (draft.afterWord text))

/-- Reads the word ahead. A directive is applied to the end of its line, and what has
been read of the statement is dropped. -/
def readWord (s : Session) (draft : Draft) : Pass :=
  let word := s.context.wordAhead s.cursor.ahead
  let text := String.ofList (upper word)
  let after := s.skip word.length
  if draft.leading.isEmpty && text == "DELIMITER" && s.dialect.delimiterDirective then
    match Delimiter.ofDirective? (currentLine s.cursor.ahead) with
    | .error fault => .failed after (.atLine after.line fault)
    | .ok (some d) =>
      .more
        { after with
          cursor := after.cursor.skipLine
          context := after.context.setDelimiter d
          scriptDelimiter := d }
        none
    | .ok none => after.takeWord draft text
  else after.takeWord draft text

end Session

end SqlBoundary
