import SqlBoundary.Context
import SqlBoundary.Lexeme.Keyword

/-!
# Blocks

Which words open a block, whether an `END` closes more than one, and which delimiter a
statement takes from the words it begins with. There are three such grammars: the
common one, and those for the stored programs of MySQL and of Oracle.

A grammar goes by the word, its neighbours and the blocks already open. It does not tell
a keyword from a name that is spelled like one.
-/

namespace SqlBoundary

open Lexeme

/-- A word of a statement with what surrounds it. Words are in upper case. -/
structure Word where
  text : String
  /-- The word before it in the statement, whatever stands between the two. -/
  previous : Option String
  /-- The token after it: a word, or one character. -/
  next : Option String
  /-- The words the statement begins with. -/
  leading : List String
  /-- Whether a procedural statement may begin here. -/
  clauseStart : Bool
  /-- The script after the word. -/
  ahead : List Char

/-- Whether the word belongs to an `END` before it, as in `END IF`. -/
def Word.followsEnd (w : Word) : Bool := w.previous == some "END"

inductive BlockGrammar
  | common
  | mysql
  | oracle
deriving DecidableEq

namespace BlockGrammar

/-- What makes a `BEGIN` the start of a transaction. -/
def transactionWords : List String :=
  [";", "TRANSACTION", "TRAN", "WORK", "DEFERRED", "IMMEDIATE", "EXCLUSIVE", "DISTRIBUTED",
   "ISOLATION", "READ"]

def beginsTransaction (next : Option String) : Bool :=
  match next with
  | none => true
  | some next => transactionWords.contains next

/-- A `BEGIN` opens a block unless it starts a transaction, a `CASE` unless it belongs to
an `END`. -/
def opensCommon (w : Word) : Bool :=
  match w.text with
  | "BEGIN" => !beginsTransaction w.next
  | "CASE" => !w.followsEnd
  | _ => false

/-- Control flow exists only inside the body of a stored program. An `IF` that reaches
its `THEN` is a statement, any other a function. -/
def opensControlFlow (w : Word) (ctx : Context) : Bool :=
  ctx.blockDepth != 0 && w.clauseStart && !w.followsEnd &&
    match w.text with
    | "IF" => nextKeyword? w.ahead ["THEN", "WHEN", "ELSE", "END"] == some "THEN"
    | "LOOP" => true
    | "WHILE" => true
    | "REPEAT" => true
    | _ => false

/-- Blocks whose declarations end at the `BEGIN` of their body. -/
def declarationBlocks : List String := ["AS", "IS", "PROCEDURE", "FUNCTION"]

/-- A package or a type body declares members, and needs no `BEGIN` of its own. -/
def declaresMembers (leading : List String) : Bool :=
  leading.contains "PACKAGE" || (leading.contains "TYPE" && leading.contains "BODY")

/-- Subprograms open a block only with a body, which `IS` or `AS` announces. -/
def opensUnit (w : Word) (ctx : Context) : Bool :=
  let member := declarationBlocks.contains ctx.innermost &&
    (nextKeyword? w.ahead ["IS", "AS"]).isSome
  let members := ctx.blockDepth == 0 && declaresMembers w.leading
  match w.text with
  | "LOOP" => !w.followsEnd
  | "IF" => ctx.blockDepth != 0 && w.clauseStart && !w.followsEnd
  | "AS" => members
  | "IS" => members
  | "PROCEDURE" => member
  | "FUNCTION" => member
  | "TRIGGER" => w.previous == some "COMPOUND"
  | _ => false

/-- Whether the word opens a block. -/
def opens (grammar : BlockGrammar) (w : Word) (ctx : Context) : Bool :=
  opensCommon w ||
    match grammar with
    | common => false
    | mysql => opensControlFlow w ctx
    | oracle => opensUnit w ctx

/-- Whether the `END` that just closed a block opened by `closed` closes the block around
it as well: the `BEGIN` of a body shares its `END` with the declarations before it. -/
def closesEnclosing (grammar : BlockGrammar) (closed : String) (ctx : Context) : Bool :=
  match grammar with
  | common => false
  | mysql => false
  | oracle => closed == "BEGIN" && declarationBlocks.contains ctx.innermost

def unitWords : List String :=
  ["FUNCTION", "PROCEDURE", "PACKAGE", "TRIGGER", "TYPE", "LIBRARY"]

/-- What may stand between `CREATE` and the kind of object, itself included. -/
def createModifiers : List String :=
  ["CREATE", "OR", "REPLACE", "EDITIONABLE", "NONEDITIONABLE"]

/-- Whether a statement that begins with these words is an anonymous block or creates a
stored unit. -/
def isUnit (leading : List String) : Bool :=
  match leading with
  | "DECLARE" :: _ => true
  | "BEGIN" :: _ => true
  | "CREATE" :: _ =>
    match leading.find? (!createModifiers.contains ·) with
    | some word => unitWords.contains word
    | none => false
  | _ => false

/-- The delimiter that a statement takes from the words it begins with, if any. -/
def statementDelimiter? (grammar : BlockGrammar) (leading : List String) : Option Delimiter :=
  match grammar with
  | common => none
  | mysql => none
  | oracle => if isUnit leading then some .slash else none

end BlockGrammar

end SqlBoundary
