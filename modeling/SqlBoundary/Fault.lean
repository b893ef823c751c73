/-!
# Faults

Every way in which reading a script, a settings file or an argument can fail, with
the wording shown to the user. A fault found while a statement is read may be
wrapped in the line at which it was found; wrapping can be repeated.

`stalled` is reported where no more of the script would ever be read: an inline
delimiter that begins like a word stands where a word would start, and an open
block or parenthesis keeps it from ending the statement.
-/

namespace SqlBoundary

/-- Texts with an opening and a closing mark. -/
inductive Construct
  | blockComment
  | stringLiteral
  | quotedIdentifier
  | dollarQuotedString
  | named (description : String)
deriving DecidableEq

def Construct.description : Construct → String
  | .blockComment => "block comment"
  | .stringLiteral => "string literal"
  | .quotedIdentifier => "quoted identifier"
  | .dollarQuotedString => "dollar-quoted string"
  | .named description => description

inductive Fault
  | blockUnderflow
  | invalidArgument (reason : String)
  | emptyDirective (line : String)
  | unterminated (construct : Construct) (line : Nat)
  | unclosedBlock (initiator : String) (line : Nat)
  | atLine (line : Nat) (cause : Fault)
  | missingFile
  | invalidUtf8
  | malformedSettings
  | stalled (line : Nat)
deriving DecidableEq

def Fault.message : Fault → String
  | .blockUnderflow => "Parsing failed: unable to decrease block depth below 0"
  | .invalidArgument reason => "Invalid argument: " ++ reason
  | .emptyDirective line => "Invalid delimiter directive: '" ++ line ++ "'"
  | .unterminated construct line =>
    "Unterminated " ++ construct.description ++ " starting at line " ++ toString line
  | .unclosedBlock initiator line =>
    "Unclosed block opened by '" ++ initiator ++ "' in statement starting at line "
      ++ toString line
  | .atLine line cause =>
    "Failed to parse statement at line " ++ toString line ++ ": " ++ cause.message
  | .missingFile => "IO error: No such file or directory (os error 2)"
  | .invalidUtf8 => "IO error: stream did not contain valid UTF-8"
  | .malformedSettings => "Serialization error: malformed settings"
  | .stalled line => "No progress at line " ++ toString line

end SqlBoundary
