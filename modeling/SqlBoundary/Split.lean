import SqlBoundary.Dialect.Vendor
import SqlBoundary.Session.Next

/-!
# Splitting a script

The whole script at once, as its statements or the first fault.
-/

namespace SqlBoundary

/-- The statements of a script that starts with the given delimiter. -/
def splitFrom (dialect : Dialect) (delimiter : Delimiter) (script : String) :
    Except Fault (List Statement) :=
  (Session.ofScript dialect delimiter script).remaining.2

/-- The statements of a script that starts with the dialect's own delimiter. -/
def split (dialect : Dialect) (script : String) : Except Fault (List Statement) :=
  splitFrom dialect dialect.defaultDelimiter script

end SqlBoundary
