import SqlBoundary.Text.Basic

/-!
# Quoted texts

How far a text between two marks reaches. Every function looks at the characters after
the opening mark and counts those up to and including the closing one; `none` says that
the text is never closed.

Counts are carried along, so that long texts are read in constant stack.
-/

namespace SqlBoundary.Lexeme

open Text

/-- The end of a text closed by `close`, counted on from `n`. A doubled closing mark
belongs to the text, and so does the character after a backslash if backslashes escape. -/
def quotedEnd? (close : Char) (escapes : Bool) : Nat → List Char → Option Nat
  | _, [] => none
  | n, c :: rest =>
    if escapes && c == '\\' then
      match rest with
      | [] => none
      | _ :: rest => quotedEnd? close escapes (n + 2) rest
    else if c == close then
      match rest with
      | [] => some (n + 1)
      | d :: rest => if d == close then quotedEnd? close escapes (n + 2) rest else some (n + 1)
    else quotedEnd? close escapes (n + 1) rest

/-- The end of a comment opened by a slash and a star. Comments do not nest. -/
def commentEnd? (body : List Char) : Option Nat :=
  (position? ['*', '/'] body).map (· + 2)

def isTagChar (c : Char) : Bool := isAlphanumeric c || c == '_'

/-- The tag between two dollars, the first of which is behind. A digit after the first
dollar makes it a parameter instead. -/
def dollarTag? (ahead : List Char) : Option (List Char) :=
  let tag := ahead.takeWhile isTagChar
  if (ahead.drop tag.length).head? == some '$' && !ahead.head?.any Char.isDigit then some tag
  else none

/-- The end of the text between two occurrences of a tag, counted from after the first
dollar of the opening one. -/
def dollarEnd? (tag ahead : List Char) : Option Nat :=
  let mark := '$' :: tag ++ ['$']
  (position? mark (ahead.drop (tag.length + 1))).map (tag.length + 1 + · + mark.length)

end SqlBoundary.Lexeme
