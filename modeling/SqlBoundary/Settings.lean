import SqlBoundary.Split

/-!
# Settings

The dialect of a script and, if it is not the dialect's own, the delimiter it starts
with.
-/

namespace SqlBoundary

structure Settings where
  vendor : Vendor
  delimiter : Option Delimiter
deriving DecidableEq

namespace Settings

instance : Inhabited Settings := ⟨default, none⟩

def withVendor (s : Settings) (vendor : Vendor) : Settings := { s with vendor }

def withDelimiter (s : Settings) (delimiter : Delimiter) : Settings :=
  { s with delimiter := some delimiter }

/-- The delimiter that scripts start with. -/
def startingDelimiter (s : Settings) : Delimiter :=
  s.delimiter.getD s.vendor.dialect.defaultDelimiter

def session (s : Settings) (script : String) : Session :=
  .ofScript s.vendor.dialect s.startingDelimiter script

def split (s : Settings) (script : String) : Except Fault (List Statement) :=
  splitFrom s.vendor.dialect s.startingDelimiter script

end Settings

end SqlBoundary
