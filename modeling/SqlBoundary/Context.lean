import SqlBoundary.Delimiter
import SqlBoundary.StatementKind

/-!
# Context

What decides whether a delimiter ends the statement being read: the parentheses and
blocks that are open, the active delimiter and the kind of statement.

The two depths are treated differently. Parentheses are counted in 32 bits and without a
floor: their depth may be negative, and above the largest number it goes on with the
smallest. A block can only be closed if one is open.
-/

namespace SqlBoundary

open Text

/-- A depth is told as a number. -/
instance instCoeInt32 : Coe Int32 Int := ⟨Int32.toInt⟩

structure Context where
  delimiter : Delimiter
  parens : Int32
  /-- The words that opened the blocks still open, innermost first. -/
  blocks : List String
  lastClosed : Option String
  kind : StatementKind
deriving DecidableEq

namespace Context

def start (delimiter : Delimiter) : Context := ⟨delimiter, 0, [], none, .unknown⟩

instance : Inhabited Context := ⟨start default⟩

def openParen (ctx : Context) : Context := { ctx with parens := ctx.parens + 1 }

def closeParen (ctx : Context) : Context := { ctx with parens := ctx.parens - 1 }

def openBlock (ctx : Context) (initiator : String) : Context :=
  { ctx with blocks := initiator :: ctx.blocks }

/-- Closes the innermost block, and remembers the word that opened it. -/
def closeBlock (ctx : Context) : Except Fault (String × Context) :=
  match ctx.blocks with
  | [] => .error .blockUnderflow
  | initiator :: outer =>
    .ok (initiator, { ctx with blocks := outer, lastClosed := some initiator })

def blockDepth (ctx : Context) : Nat := ctx.blocks.length

/-- The word that opened the innermost block, empty if none is open. -/
def innermost (ctx : Context) : String := ctx.blocks.headD ""

def setDelimiter (ctx : Context) (delimiter : Delimiter) : Context :=
  { ctx with delimiter := delimiter }

/-- A statement is never classified as unknown. -/
def setKind (ctx : Context) (kind : StatementKind) : Except Fault Context :=
  if kind = .unknown then
    .error (.invalidArgument "statement type must be a concrete classification")
  else .ok { ctx with kind := kind }

def isLetter (ctx : Context) (c : Char) : Bool := isAlphabetic c || ctx.kind.admits c

def startsWord (ctx : Context) (c : Char) : Bool := ctx.isLetter c || c == '_'

def isWordChar (ctx : Context) (c : Char) : Bool := ctx.isLetter c || c.isDigit || c == '_'

/-- The word ahead. It ends where the active inline delimiter begins, even if that is
made of word characters, and is then possibly empty. -/
def wordAhead (ctx : Context) : List Char → List Char
  | [] => []
  | c :: rest =>
    if ctx.isWordChar c && !ctx.delimiter.startsAt (c :: rest) then c :: ctx.wordAhead rest
    else []

/-- The token after any blanks: a word in upper case, or one character. A delimiter is
not told apart here. -/
def tokenAhead? (ctx : Context) (ahead : List Char) : Option String :=
  match trimStart ahead with
  | [] => none
  | c :: rest =>
    if ctx.startsWord c then some (String.ofList (upper (c :: rest.takeWhile ctx.isWordChar)))
    else some (String.singleton c)

end Context

end SqlBoundary
