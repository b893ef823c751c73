import SqlBoundary.CommandLine.Options
import SqlBoundary.CommandLine.Path
import SqlBoundary.Interchange

/-!
# Running the command

A run reads the settings and the script through functions that it is given, and answers
with an exit code and the text to print. Options come before settings, settings before
the dialect's own delimiter. Nothing is printed of a script that cannot be split.
-/

namespace SqlBoundary.CommandLine

structure Outcome where
  exitCode : Nat
  output : String
  /-- What failed, and why. -/
  failure : Option (String × Fault)
  /-- Remarks on the run, for standard error. -/
  remarks : List String
deriving DecidableEq

namespace Outcome

def printed (output : String) : Outcome := ⟨0, output, none, []⟩

def rejected : Outcome := ⟨2, "", none, ["Arguments not understood; try --help."]⟩

def failed (headline : String) (fault : Fault) : Outcome := ⟨1, "", some (headline, fault), []⟩

/-- The text for standard error of what failed. -/
def failureText (headline : String) (fault : Fault) : String :=
  "Error: " ++ headline ++ "\n\nCaused by:\n    " ++ fault.message ++ "\n"

def addRemarks (o : Outcome) (remarks : List String) : Outcome :=
  { o with remarks := o.remarks ++ remarks }

end Outcome

def version : String := "oxide-sql-split 0.1.0\n"

def usage : String :=
  String.join
    ["Usage: oxide-sql-split [OPTIONS] <SCRIPT>\n\nOptions:\n",
      "  -d, --dialect <DIALECT>      generic, mysql, postgres, oracle or sqlserver\n",
      "      --delimiter <DELIMITER>  delimiter the script starts with\n",
      "      --alone-on-line          match the delimiter on a line of its own only\n",
      "  -c, --config <CONFIG>        JSON settings file\n",
      "      --json                   print the statements as a JSON array\n",
      "  -v, --verbose                tell which settings are in effect\n",
      "  -h, --help                   print this text\n",
      "  -V, --version                print the version\n"]

/-- A statement as printed, under a comment with its line. -/
def statementText (s : Statement) : String :=
  "-- line " ++ toString s.line ++ "\n" ++ s.sql ++ s.delimiter.display ++ "\n"

def statementsText (json : Bool) (statements : List Statement) : String :=
  if json then
    String.ofList ((Json.array (statements.map Statement.toJson)).indented 0) ++ "\n"
  else String.join (statements.map statementText)

/-- Settings from a file, if there is one, overridden by the options. -/
def Options.applyTo (o : Options) (s : Settings) : Settings :=
  let s := match o.vendor with
    | some vendor => s.withVendor vendor
    | none => s
  match o.delimiter with
  | some text => s.withDelimiter ⟨text, o.aloneOnLine⟩
  | none => s

/-- Where a command reads from. -/
structure Source (m : Type → Type) where
  file : String → m (Except Fault String)
  standardInput : m (Except Fault String)

variable {m : Type → Type} [Monad m]

def readSettings (source : Source m) (path : Option String) : m (Except Fault Settings) :=
  match path with
  | none => return .ok default
  | some path => return (← source.file path).bind Settings.parse

/-- A path that is a single dash, in any spelling, stands for standard input. -/
def readScript (source : Source m) (path : String) : m (Except Fault String) :=
  if Path.same path "-" then source.standardInput else source.file path

/-- The settings in effect, if asked for, and the warnings. -/
def remarks (o : Options) (settings : Settings) (warnings : List Warning) : List String :=
  (if o.verbose then ["settings " ++ settings.render] else []) ++
    warnings.map fun w => "line " ++ toString w.line ++ ": " ++ w.message

def splitScript (o : Options) (path : String) (settings : Settings) (script : String) : Outcome :=
  let settings := o.applyTo settings
  let (session, result) := (settings.session script).remaining
  let outcome := match result with
    | .ok statements => Outcome.printed (statementsText o.json statements)
    | .error fault => .failed ("Failed to split " ++ path) fault
  outcome.addRemarks (remarks o settings session.warnings)

def runOptions (source : Source m) (o : Options) : m Outcome := do
  match ← readSettings source o.settings with
  | .error fault => return .failed ("Failed to load configuration " ++ o.settings.getD "") fault
  | .ok settings =>
    let path := o.script.getD ""
    match ← readScript source path with
    | .error fault => return .failed ("Failed to read " ++ path) fault
    | .ok script => return splitScript o path settings script

def run (source : Source m) (args : List String) (environment : Option String) : m Outcome :=
  match Options.parse args environment with
  | .ok o => runOptions source o
  | .error .help => return .printed usage
  | .error .version => return .printed version
  | .error .rejected => return .rejected

end SqlBoundary.CommandLine
