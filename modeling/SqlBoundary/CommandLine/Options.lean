import SqlBoundary.Dialect.Vendor

/-!
# Command line options

Arguments are read from left to right, and the first that is out of place rejects them
all. An option takes its value from the rest of its argument or from the next one, which
must not look like an option. Short options may share an argument, the last of them with
a value. After `--` every argument is a path. A request for help or the version is
answered when it is met.

The dialect may also come from the environment, where an empty text is no dialect.

It stands for the parser of arguments to which the command declares its options. Only the command
depends on it, and no theorem is about it.
-/

namespace SqlBoundary.CommandLine

structure Options where
  script : Option String
  vendor : Option Vendor
  delimiter : Option String
  aloneOnLine : Bool
  settings : Option String
  json : Bool
  verbose : Bool
deriving DecidableEq

def Options.initial : Options := ⟨none, none, none, false, none, false, false⟩

/-- What keeps the arguments from being options. -/
inductive Refusal
  | help
  | version
  | rejected
deriving DecidableEq

/-- Options that take a value. -/
inductive Valued
  | dialect
  | delimiter
  | settings

/-- Options that do not. -/
inductive Flag
  | aloneOnLine
  | json
  | verbose
  | help
  | version

inductive Switch
  | valued (option : Valued)
  | flag (option : Flag)

def Switch.ofLong? (name : String) : Option Switch :=
  match name with
  | "dialect" => some (.valued .dialect)
  | "delimiter" => some (.valued .delimiter)
  | "config" => some (.valued .settings)
  | "alone-on-line" => some (.flag .aloneOnLine)
  | "json" => some (.flag .json)
  | "verbose" => some (.flag .verbose)
  | "help" => some (.flag .help)
  | "version" => some (.flag .version)
  | _ => none

def Switch.ofShort? (name : Char) : Option Switch :=
  match name with
  | 'd' => some (.valued .dialect)
  | 'c' => some (.valued .settings)
  | 'v' => some (.flag .verbose)
  | 'h' => some (.flag .help)
  | 'V' => some (.flag .version)
  | _ => none

namespace Options

def readVendor (name : String) : Except Refusal Vendor :=
  (Vendor.parse name).mapError fun _ => .rejected

/-- A path; the empty text is none, and only one script can be given. -/
def setScript (o : Options) (path : String) : Except Refusal Options :=
  if o.script.isSome || path.isEmpty then .error .rejected
  else .ok { o with script := some path }

/-- No option can be given twice. -/
def setValue (o : Options) (option : Valued) (value : String) : Except Refusal Options :=
  match option with
  | .dialect =>
    if o.vendor.isSome then .error .rejected
    else (readVendor value).map fun vendor => { o with vendor := some vendor }
  | .delimiter =>
    if o.delimiter.isSome then .error .rejected else .ok { o with delimiter := some value }
  | .settings =>
    if o.settings.isSome || value.isEmpty then .error .rejected
    else .ok { o with settings := some value }

def setFlag (o : Options) (option : Flag) : Except Refusal Options :=
  match option with
  | .aloneOnLine => if o.aloneOnLine then .error .rejected else .ok { o with aloneOnLine := true }
  | .json => if o.json then .error .rejected else .ok { o with json := true }
  | .verbose => if o.verbose then .error .rejected else .ok { o with verbose := true }
  | .help => .error .help
  | .version => .error .version

/-- Whether an argument cannot be the value of the option before it. A single dash is a
path. -/
def looksLikeOption (arg : String) : Bool := arg.toList.head? == some '-' && arg != "-"

/-- An argument of short options; `some` is an option that still needs its value. -/
def readShort (o : Options) : List Char → Except Refusal (Options × Option Valued)
  | [] => .ok (o, none)
  | c :: rest =>
    match Switch.ofShort? c with
    | some (.flag option) => do readShort (← o.setFlag option) rest
    | some (.valued option) =>
      if rest.isEmpty then .ok (o, some option)
      else
        let value := if rest.head? == some '=' then rest.tail else rest
        do return (← o.setValue option (String.ofList value), none)
    | none => .error .rejected

/-- An argument with a long option, with or without a value after an equals sign. -/
def readLong (o : Options) (text : List Char) : Except Refusal (Options × Option Valued) :=
  let name := text.takeWhile (· != '=')
  let value := (text.drop name.length).tail?.map String.ofList
  match Switch.ofLong? (String.ofList name), value with
  | some (.flag option), none => do return (← o.setFlag option, none)
  | some (.valued option), some value => do return (← o.setValue option value, none)
  | some (.valued option), none => .ok (o, some option)
  | _, _ => .error .rejected

/-- Reads the arguments; `pending` is an option whose value is the next of them. -/
def readArgs (o : Options) (pending : Option Valued) : List String → Except Refusal Options
  | [] => if pending.isSome then .error .rejected else .ok o
  | arg :: rest =>
    match pending with
    | some option =>
      if looksLikeOption arg then .error .rejected
      else do readArgs (← o.setValue option arg) none rest
    | none =>
      match arg.toList with
      | ['-', '-'] => rest.foldlM setScript o
      | '-' :: '-' :: text => do
        let (o, pending) ← o.readLong text
        readArgs o pending rest
      | '-' :: c :: text => do
        let (o, pending) ← o.readShort (c :: text)
        readArgs o pending rest
      | _ => do readArgs (← o.setScript arg) none rest

/-- What has to hold of the options together: there is a script, and a delimiter if it is
to stand alone. -/
def check (o : Options) : Except Refusal Options :=
  if o.script.isNone || (o.aloneOnLine && o.delimiter.isNone) then .error .rejected else .ok o

/-- The options given by the arguments and the dialect in the environment. -/
def parse (args : List String) (environment : Option String) : Except Refusal Options := do
  let o ← readArgs .initial none args
  match o.vendor, environment with
  | none, some name => check { o with vendor := some (← readVendor name) }
  | _, _ => check o

end Options

end SqlBoundary.CommandLine
