import SqlBoundary.Dialect
import SqlBoundary.Lexeme.Quoted

/-!
# Comments and tokens

What stands ahead in a dialect, and how far it reaches. Nothing inside a quoted text or
a comment is looked at: a delimiter, a keyword or another opening mark in it has no
effect.

The extent of a word is not fixed here, since the active delimiter may cut it short.
-/

namespace SqlBoundary

open Text Lexeme

/-- How many characters a text with an opening and a closing mark takes up. Of one that
is never closed, `passed` are read before that is noticed. -/
inductive Extent
  | closed (length : Nat)
  | unclosed (construct : Construct) (passed : Nat)
deriving DecidableEq

inductive Token
  | text (extent : Extent)
  | word
  | symbol (c : Char)
deriving DecidableEq

/-- How a quoted text is read once its opening mark, of `opening` characters, is seen. -/
structure Quote where
  opening : Nat
  close : Char
  escapes : Bool
  construct : Construct
deriving DecidableEq

def Quote.extent (q : Quote) (ahead : List Char) : Extent :=
  match quotedEnd? q.close q.escapes q.opening (ahead.drop q.opening) with
  | some n => .closed n
  | none => .unclosed q.construct ahead.length

/-- An unclosed dollar-quoted text is noticed before anything of it is passed. -/
def dollarExtent (tag rest : List Char) : Extent :=
  match dollarEnd? tag rest with
  | some n => .closed (n + 1)
  | none => .unclosed .dollarQuotedString 0

namespace Dialect

/-- A comment ahead. One that ends with its line leaves the line feed. -/
def comment? (d : Dialect) (ahead : List Char) : Option Extent :=
  if ['-', '-'].isPrefixOf ahead || (d.hashComments && ahead.head? == some '#') then
    some (.closed (lineLength ahead))
  else if ['/', '*'].isPrefixOf ahead then
    match commentEnd? (ahead.drop 2) with
    | some n => some (.closed (n + 2))
    | none => some (.unclosed .blockComment ahead.length)
  else none

/-- The quote that `c` opens, if any. String literals come before quoted identifiers. -/
def quote? (d : Dialect) (c : Char) (rest : List Char) : Option Quote :=
  if d.escapeStrings && (c == 'E' || c == 'e') && rest.head? == some '\'' then
    some ⟨2, '\'', true, .stringLiteral⟩
  else if d.stringQuotes.contains c then some ⟨1, c, d.backslashEscapes, .stringLiteral⟩
  else (d.identifierClose? c).map fun close => ⟨1, close, false, .quotedIdentifier⟩

/-- The tag of a dollar-quoted text that `c` opens, if any. -/
def dollarQuote? (d : Dialect) (c : Char) (rest : List Char) : Option (List Char) :=
  if d.dollarQuotes && c == '$' then dollarTag? rest else none

/-- The token that begins with `c`. -/
def token (d : Dialect) (startsWord : Char → Bool) (c : Char) (rest : List Char) : Token :=
  match d.dollarQuote? c rest with
  | some tag => .text (dollarExtent tag rest)
  | none =>
    match d.quote? c rest with
    | some q => .text (q.extent (c :: rest))
    | none => if startsWord c then .word else .symbol c

end Dialect

end SqlBoundary
