import SqlBoundary.CommandLine.Run

/-!
# Command

Splits the script named on the command line. Statements go to standard output, remarks
and what failed to standard error. A file that is not there is a fault of the run; whatever
else keeps the system from reading one ends the command in the system's own words.
-/

namespace SqlBoundary.CommandLine

def ofBytes (bytes : ByteArray) : Except Fault String :=
  match String.fromUTF8? bytes with
  | some text => .ok text
  | none => .error .invalidUtf8

/-- Files of the system. -/
def systemSource : Source IO where
  file path := do
    try
      return ofBytes (← IO.FS.readBinFile path)
    catch
      | .noFileOrDirectory _ _ _ => return .error .missingFile
      | other => throw other
  standardInput := do return ofBytes (← (← IO.getStdin).readBinToEnd)

end SqlBoundary.CommandLine

open SqlBoundary.CommandLine in
def main (args : List String) : IO UInt32 := do
  let outcome ← run systemSource args (← IO.getEnv "OXIDE_SQL_DIALECT")
  outcome.remarks.forM IO.eprintln
  IO.print outcome.output
  match outcome.failure with
  | some (headline, fault) => IO.eprint (Outcome.failureText headline fault)
  | none => pure ()
  return outcome.exitCode.toUInt32
