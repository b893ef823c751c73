import SqlBoundary.Text.Basic

/-!
# Looking ahead for a keyword

Whether a word opens a block may depend on a keyword further on in the same expression.
The search passes over parentheses, quoted texts, comments and other words. It gives up
where the expression ends: at a semicolon, a comma or a closing parenthesis that is not
inside parentheses, and at the end of the script.

The search has its own idea of quoted texts, the same in every dialect: any of three
quotes opens one, and a backslash always escapes.
-/

namespace SqlBoundary.Lexeme

open Text

def isQuote (c : Char) : Bool := c == '\'' || c == '"' || c == '\x60'

def startsName (c : Char) : Bool := isAlphabetic c || c == '_'

def isNameChar (c : Char) : Bool := isAlphanumeric c || c == '_' || c == '$' || c == '#'

/-- Characters after an opening quote up to and including the closing one, or all there
are, counted on from `n`. -/
def looseQuotedEnd (close : Char) : Nat → List Char → Nat
  | n, [] => n
  | n, c :: rest =>
    if c == '\\' then
      match rest with
      | [] => n + 1
      | _ :: rest => looseQuotedEnd close (n + 2) rest
    else if c == close then n + 1
    else looseQuotedEnd close (n + 1) rest

/-- Characters after an opening slash and star up to and including the closing pair, or
all there are. -/
def looseCommentEnd (body : List Char) : Nat :=
  match position? ['*', '/'] body with
  | some n => n + 2
  | none => body.length

/-- Searches for a keyword, past `skip` characters and inside `depth` parentheses. -/
def seekKeyword (keywords : List String) : Nat → Nat → List Char → Option String
  | _, _, [] => none
  | skip + 1, depth, _ :: rest => seekKeyword keywords skip depth rest
  | 0, depth, c :: rest =>
    if c == '(' then seekKeyword keywords 0 (depth + 1) rest
    else if c == ')' then
      if depth = 0 then none else seekKeyword keywords 0 (depth - 1) rest
    else if depth = 0 && (c == ';' || c == ',') then none
    else if isQuote c then seekKeyword keywords (looseQuotedEnd c 0 rest) depth rest
    else if c == '-' && rest.head? == some '-' then
      seekKeyword keywords (lineLength rest) depth rest
    else if c == '/' && rest.head? == some '*' then
      seekKeyword keywords (looseCommentEnd rest.tail + 1) depth rest
    else if startsName c then
      let name := rest.takeWhile isNameChar
      match if depth = 0 then keywords.find? (sameIgnoringCase (c :: name) ·.toList) else none with
      | some keyword => some keyword
      | none => seekKeyword keywords name.length depth rest
    else seekKeyword keywords 0 depth rest

/-- The first of the keywords met in the expression ahead, as spelled in the list. -/
def nextKeyword? (ahead : List Char) (keywords : List String) : Option String :=
  seekKeyword keywords 0 0 ahead

end SqlBoundary.Lexeme
