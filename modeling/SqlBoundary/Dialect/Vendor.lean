import SqlBoundary.Dialect

/-!
# Vendors

The dialects a user can name. A name is read in any ASCII case, and some vendors have a
second one; `name` is the one used in settings.
-/

namespace SqlBoundary

inductive Vendor
  | generic
  | mysql
  | postgres
  | oracle
  | sqlserver
deriving DecidableEq

namespace Vendor

open Text

instance : Inhabited Vendor := ⟨generic⟩

def all : List Vendor := [generic, mysql, postgres, oracle, sqlserver]

def name : Vendor → String
  | generic => "generic"
  | mysql => "mysql"
  | postgres => "postgres"
  | oracle => "oracle"
  | sqlserver => "sqlserver"

def aliases : Vendor → List String
  | generic => ["ansi"]
  | mysql => ["mariadb"]
  | postgres => ["postgresql"]
  | oracle => []
  | sqlserver => ["mssql"]

def dialect : Vendor → Dialect
  | generic => .generic
  | mysql => .mysql
  | postgres => .postgres
  | oracle => .oracle
  | sqlserver => .sqlserver

/-- The place of a vendor in `all`. -/
def index (v : Vendor) : Nat := all.idxOf v

/-- The vendor with exactly this name. -/
def ofName? (s : String) : Option Vendor := all.find? (·.name == s)

/-- The vendor with this name or second name, in any ASCII case. -/
def parse (s : String) : Except Fault Vendor :=
  let key := String.ofList (lower s.toList)
  match all.find? fun v => (v.name :: v.aliases).contains key with
  | some v => .ok v
  | none => .error (.invalidArgument ("unknown dialect '" ++ s ++ "'"))

end Vendor

end SqlBoundary
