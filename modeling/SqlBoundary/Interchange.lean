import SqlBoundary.Json.Library
import SqlBoundary.Json.Reader
import SqlBoundary.Json.Writer
import SqlBoundary.Settings

/-!
# Settings and statements as JSON

Settings are exchanged as text through a JSON library, and through readers and writers that are derived
from the declarations of their types. Any of these will do; the ones that the program runs with are
those of `Interchange.native`.

There settings are an object with the fields `dialect` and `delimiter`, both optional, or an
array of the two in this order. A delimiter is an object with the fields `delimiter` and,
optionally, `alone_on_line`, or an array of the two. A dialect is its name, or an object
whose one field has that name and holds null.

Settings admit no other fields, a delimiter does. No field that has a meaning may be
repeated. Whatever is not of this form is malformed, without further distinction.
-/

namespace SqlBoundary

open Json (field named? unrepeated)

namespace Delimiter

def toJson (d : Delimiter) : Json :=
  .object
    [field "delimiter" (.ofString d.text), field "alone_on_line" (.bool d.aloneOnLine)]

def ofJson? : Json → Option Delimiter
  | .array [text] => do return ⟨← text.toString?, false⟩
  | .array [text, alone] => do return ⟨← text.toString?, ← alone.toBool?⟩
  | .object fields => do
    let fields ← named? fields
    if unrepeated "delimiter" fields && unrepeated "alone_on_line" fields then
      let text ← fields.lookup "delimiter"
      let alone := (fields.lookup "alone_on_line").getD (.bool false)
      return ⟨← text.toString?, ← alone.toBool?⟩
    else none
  | _ => none

/-- Null stands for no delimiter. -/
def optionOfJson? : Json → Option (Option Delimiter)
  | .null => some none
  | json => (ofJson? json).map some

end Delimiter

def Vendor.ofJson? : Json → Option Vendor
  | .object [(name, .null)] => (Json.string name).toString?.bind Vendor.ofName?
  | json => json.toString?.bind Vendor.ofName?

namespace Settings

def toJson (s : Settings) : Json :=
  .object
    (field "dialect" (.ofString s.vendor.name) ::
      match s.delimiter with
      | some d => [field "delimiter" d.toJson]
      | none => [])

def ofJson? : Json → Option Settings
  | .array [] => some default
  | .array [vendor] => do return ⟨← Vendor.ofJson? vendor, none⟩
  | .array [vendor, delimiter] => do
    return ⟨← Vendor.ofJson? vendor, ← Delimiter.optionOfJson? delimiter⟩
  | .object fields => do
    let fields ← named? fields
    if fields.all (["dialect", "delimiter"].contains ·.1) &&
        unrepeated "dialect" fields && unrepeated "delimiter" fields then
      let vendor := (fields.lookup "dialect").map Vendor.ofJson?
      let delimiter := (fields.lookup "delimiter").map Delimiter.optionOfJson?
      return ⟨← vendor.getD (some default), ← delimiter.getD (some none)⟩
    else none
  | _ => none

end Settings

/-- A JSON library with readers and writers for settings and what they are made of. -/
structure Interchange extends Json.Library where
  ofVendor : Vendor → Document
  vendor? : Document → Option Vendor
  ofDelimiter : Delimiter → Document
  delimiter? : Document → Option Delimiter
  ofSettings : Settings → Document
  settings? : Document → Option Settings

namespace Interchange

/-- Settings as written to a file. -/
def write (i : Interchange) (s : Settings) : String := i.print (i.ofSettings s)

/-- Settings as read from the text of a file. -/
def read (i : Interchange) (text : String) : Except Fault Settings :=
  match (i.parse? text).bind i.settings? with
  | some s => .ok s
  | none => .error .malformedSettings

def native : Interchange where
  Document := Json
  null := .null
  bool := .bool
  string := .ofString
  object fields := .object (fields.map fun (name, value) => field name value)
  isNull json := match json with
    | .null => true
    | _ => false
  toBool? := Json.toBool?
  toString? := Json.toString?
  print json := String.ofList json.compact
  parse? text := Json.parse? text.toList
  ofVendor v := .ofString v.name
  vendor? := Vendor.ofJson?
  ofDelimiter := Delimiter.toJson
  delimiter? := Delimiter.ofJson?
  ofSettings := Settings.toJson
  settings? := Settings.ofJson?

end Interchange

namespace Settings

def render (s : Settings) : String := Interchange.native.write s

def parse (text : String) : Except Fault Settings := Interchange.native.read text

end Settings

def Statement.toJson (s : Statement) : Json :=
  .object
    [field "line" (.ofNat s.line), field "start" (.ofNat s.start), field "end" (.ofNat s.stop),
      field "sql" (.ofString s.sql), field "delimiter" s.delimiter.toJson]

end SqlBoundary
