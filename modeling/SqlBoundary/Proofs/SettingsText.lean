import SqlBoundary.Interchange
import SqlBoundary.Proofs.JsonRoundTrip

/-!
# Settings read back from their text

Settings are what is read back from their text with any JSON library that follows the standard of the
format, if the readers and writers are derived from the declarations of the types: a delimiter that is
not set is left out, vendors are named in lower case, and fields that are missing have their defaults.
Whatever the text of a delimiter is, a script is then split by it as before.
-/

namespace SqlBoundary

namespace Json

/-- Made of null, truth values, texts and objects that do not repeat a name. -/
inductive Library.Built (lib : Library) : lib.Document → Prop
  | null : lib.Built lib.null
  | bool (value : Bool) : lib.Built (lib.bool value)
  | string (text : String) : lib.Built (lib.string text)
  | object {fields : List (String × lib.Document)} (names : (fields.map (·.1)).Nodup)
      (each : ∀ field ∈ fields, lib.Built field.2) : lib.Built (lib.object fields)

/-- What a library does by the standard of the format. -/
structure Library.Standard (lib : Library) : Prop where
  parse_print : ∀ document, lib.Built document → lib.parse? (lib.print document) = some document
  bool : ∀ value, lib.toBool? (lib.bool value) = some value
  string : ∀ text, lib.toString? (lib.string text) = some text
  object : ∀ fields, lib.isNull (lib.object fields) = false

end Json

open Json (unrepeated)

/-- The name of a vendor in its declaration. -/
def Vendor.declared : Vendor → String
  | generic => "Generic"
  | mysql => "Mysql"
  | postgres => "Postgres"
  | oracle => "Oracle"
  | sqlserver => "Sqlserver"

/-- In settings that name is in lower case. -/
def Vendor.renamed (v : Vendor) : String := String.ofList (Text.lower v.declared.toList)

/-- What the readers and writers do that are derived from the declarations. -/
structure Interchange.Derived (i : Interchange) : Prop where
  ofVendor : ∀ v, i.ofVendor v = i.string v.renamed
  vendor? : ∀ name, i.vendor? (i.string name) = Vendor.all.find? (·.renamed == name)
  ofDelimiter : ∀ d, i.ofDelimiter d =
    i.object [("delimiter", i.string d.text), ("alone_on_line", i.bool d.aloneOnLine)]
  /-- Whether it is alone on its line may be missing, and other fields are passed over. -/
  delimiter? : ∀ fields, i.delimiter? (i.object fields) =
    if unrepeated "delimiter" fields && unrepeated "alone_on_line" fields then do
      let text ← (fields.lookup "delimiter").bind i.toString?
      let alone ← (fields.lookup "alone_on_line").elim (some false) i.toBool?
      return ⟨text, alone⟩
    else none
  /-- A delimiter that is not set is left out. -/
  ofSettings : ∀ s, i.ofSettings s =
    i.object (("dialect", i.ofVendor s.vendor) ::
      (s.delimiter.map fun d => ("delimiter", i.ofDelimiter d)).toList)
  /-- Both fields may be missing, null is no delimiter, and there may be no other field. -/
  settings? : ∀ fields, i.settings? (i.object fields) =
    if fields.all (["dialect", "delimiter"].contains ·.1) &&
        unrepeated "dialect" fields && unrepeated "delimiter" fields then do
      let vendor ← (fields.lookup "dialect").elim (some (default : Settings).vendor) i.vendor?
      let delimiter ← (fields.lookup "delimiter").elim (some (default : Settings).delimiter)
        fun document =>
          if i.isNull document then some none else (i.delimiter? document).map some
      return ⟨vendor, delimiter⟩
    else none

theorem Vendor.find?_renamed (v : Vendor) : all.find? (·.renamed == v.renamed) = some v := by
  cases v <;> decide +kernel

namespace Interchange

variable {i : Interchange}

theorem Derived.built_ofDelimiter (derived : i.Derived) (d : Delimiter) :
    i.Built (i.ofDelimiter d) := by
  rw [derived.ofDelimiter]
  refine .object (by simp) fun field mem => ?_
  rcases List.mem_cons.mp mem with rfl | mem
  · exact .string _
  · rw [List.mem_singleton.mp mem]
    exact .bool _

theorem Derived.built_ofSettings (derived : i.Derived) (s : Settings) :
    i.Built (i.ofSettings s) := by
  rw [derived.ofSettings, derived.ofVendor]
  refine .object ?_ fun field mem => ?_
  · cases s.delimiter <;> simp
  · rcases List.mem_cons.mp mem with rfl | mem
    · exact .string _
    · obtain ⟨d, -, rfl⟩ := Option.map_eq_some_iff.mp (Option.mem_toList.mp mem)
      exact derived.built_ofDelimiter d

theorem Derived.delimiter?_ofDelimiter (derived : i.Derived) (standard : i.Standard)
    (d : Delimiter) : i.delimiter? (i.ofDelimiter d) = some d := by
  rw [derived.ofDelimiter, derived.delimiter?]
  simp [unrepeated, List.lookup_cons, standard.string, standard.bool]

theorem Derived.settings?_ofSettings (derived : i.Derived) (standard : i.Standard)
    (s : Settings) : i.settings? (i.ofSettings s) = some s := by
  have vendor : ∀ v, i.vendor? (i.ofVendor v) = some v := by
    intro v
    rw [derived.ofVendor, derived.vendor?, Vendor.find?_renamed]
  have object : ∀ d, i.isNull (i.ofDelimiter d) = false := by
    intro d
    rw [derived.ofDelimiter, standard.object]
  rw [derived.ofSettings, derived.settings?]
  obtain ⟨v, delimiter⟩ := s
  cases delimiter with
  | none => simp [unrepeated, List.lookup_cons, vendor]; rfl
  | some d =>
    simp [unrepeated, List.lookup_cons, vendor, object, derived.delimiter?_ofDelimiter standard]

theorem written_of_built {document : native.Document} (h : native.Built document) :
    Json.Written document := by
  induction h with
  | null => exact .null
  | bool value => exact .bool value
  | string text => exact .string _
  | object _ _ written => exact Json.written_fields written

theorem native_standard : native.Standard where
  parse_print document built := by
    change Json.parse? (String.ofList (Json.compact document)).toList = some document
    rw [String.toList_ofList]
    exact Json.parse?_compact (written_of_built built)
  bool _ := rfl
  string text := Json.toString?_ofString text
  object _ := rfl

theorem vendor?_ofString (name : String) :
    Vendor.ofJson? (.ofString name) = Vendor.all.find? (·.renamed == name) := by
  have same : ∀ v : Vendor, v.renamed = v.name := by
    intro v
    cases v <;> decide +kernel
  change (Json.ofString name).toString?.bind Vendor.ofName? = _
  simp only [Json.toString?_ofString, Option.bind_some, Vendor.ofName?, same]

theorem delimiter?_object (fields : List (String × Json)) :
    Delimiter.ofJson? (.object (fields.map fun f => Json.field f.1 f.2)) =
      if unrepeated "delimiter" fields && unrepeated "alone_on_line" fields then do
        let text ← (fields.lookup "delimiter").bind Json.toString?
        let alone ← (fields.lookup "alone_on_line").elim (some false) Json.toBool?
        return ⟨text, alone⟩
      else none := by
  rw [Delimiter.ofJson?, Json.named?_fields]
  simp only [Option.bind_eq_bind, Option.bind_some]
  cases fields.lookup "delimiter" <;> cases fields.lookup "alone_on_line" <;> rfl

theorem settings?_object (fields : List (String × Json)) :
    Settings.ofJson? (.object (fields.map fun f => Json.field f.1 f.2)) =
      if fields.all (["dialect", "delimiter"].contains ·.1) &&
          unrepeated "dialect" fields && unrepeated "delimiter" fields then do
        let vendor ← (fields.lookup "dialect").elim (some (default : Settings).vendor)
          Vendor.ofJson?
        let delimiter ← (fields.lookup "delimiter").elim (some (default : Settings).delimiter)
          fun document =>
            if native.isNull document then some none
            else (Delimiter.ofJson? document).map some
        return ⟨vendor, delimiter⟩
      else none := by
  have option : ∀ document, Delimiter.optionOfJson? document =
      if native.isNull document then some none else (Delimiter.ofJson? document).map some := by
    intro document
    cases document <;> rfl
  rw [Settings.ofJson?, Json.named?_fields]
  simp only [Option.bind_eq_bind, Option.bind_some, ← option]
  cases fields.lookup "dialect" <;> cases fields.lookup "delimiter" <;> rfl

theorem native_derived : native.Derived where
  ofVendor v := by cases v <;> rfl
  vendor? := vendor?_ofString
  ofDelimiter _ := rfl
  delimiter? := delimiter?_object
  ofSettings s := by
    obtain ⟨vendor, delimiter⟩ := s
    cases delimiter <;> cases vendor <;> rfl
  settings? := settings?_object

/-- Settings are what is read back from their text, and what is read splits a script as they do: from
their delimiter, or else that of their dialect. -/
theorem read_write (i : Interchange) (standard : i.Standard) (derived : i.Derived)
    (s : Settings) :
    i.read (i.write s) = .ok s ∧
      ∀ t, i.read (i.write s) = .ok t → ∀ script,
        t.split script = s.split script ∧
          s.split script = splitFrom s.vendor.dialect
            (match s.delimiter with
              | some d => d
              | none => s.vendor.dialect.defaultDelimiter) script := by
  have back : i.read (i.write s) = .ok s := by
    rw [read, write, standard.parse_print _ (derived.built_ofSettings s), Option.bind_some,
      derived.settings?_ofSettings standard]
  refine ⟨back, fun t read script => ?_⟩
  rw [back] at read
  cases read
  refine ⟨rfl, ?_⟩
  rw [Settings.split, Settings.startingDelimiter]
  cases s.delimiter <;> rfl

/-- A quote, a backslash, a control and a character beyond U+FFFF come back from their escapes. -/
theorem read_write_escapes :
    let s : Settings := ⟨.postgres, some ⟨"\"\\\x01😀", true⟩⟩
    native.write s = "\x7b\"dialect\":\"postgres\",\"delimiter\":\x7b" ++
        "\"delimiter\":\"\\\"\\\\\\u0001😀\",\"alone_on_line\":true\x7d\x7d" ∧
      native.read (native.write s) = .ok s ∧
      ∀ t, native.read (native.write s) = .ok t → ∀ script,
        t.split script = splitFrom .postgres ⟨"\"\\\x01😀", true⟩ script := by
  intro s
  obtain ⟨back, splits⟩ := read_write native native_standard native_derived s
  refine ⟨by decide +kernel, back, fun t read script => ?_⟩
  obtain ⟨same, own⟩ := splits t read script
  exact same.trans own

end Interchange

end SqlBoundary
