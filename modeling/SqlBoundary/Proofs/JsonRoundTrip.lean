import SqlBoundary.Json.Reader
import SqlBoundary.Json.Writer

/-!
# Documents read back from their line

A document is read back from the line that is written for it. The reader knows where a value
ends before it knows what stands behind, except for a number: a value is therefore read before
any text that does not go on with one.

The fuel of the reader is counted against the characters of the text: two units for each are
spent at most on what it is read as.
-/

namespace SqlBoundary

namespace Json

/-- Every string and name has the spelling that is written for some text, and every number that
of a number. -/
inductive Written : Json → Prop
  | null : Written .null
  | bool (value : Bool) : Written (.bool value)
  | number {spelling : List Char} (holds : isNumber spelling = true)
      (chars : ∀ c ∈ spelling, isNumberChar c = true) : Written (.number spelling)
  | string (text : List Char) : Written (.string (Literal.encode text))
  | array {items : List Json} (each : ∀ item ∈ items, Written item) : Written (.array items)
  | object {fields : List (List Char × Json)}
      (names : ∀ field ∈ fields, ∃ text, field.1 = Literal.encode text)
      (each : ∀ field ∈ fields, Written field.2) : Written (.object fields)

/-- No number goes on into this text. -/
def Apart (rest : List Char) : Prop := ∀ c ∈ rest.head?, isNumberChar c = false

/-- The value is read from its line whatever stands behind. -/
def ReadBack (json : Json) : Prop :=
  ∀ fuel rest, 2 * json.compact.length ≤ fuel → Apart rest →
    value? fuel (json.compact ++ rest) = some (json, rest)

/-- The line of a value begins with a character that is neither blank nor a closing bracket. -/
def Leads (text : List Char) : Prop :=
  ∃ c rest, text = c :: rest ∧ isSpace c = false ∧ c ≠ ']'

theorem skipSpace_solid {c : Char} (solid : isSpace c = false) (rest : List Char) :
    skipSpace (c :: rest) = c :: rest := by
  simp [skipSpace, solid]

theorem Leads.append {text : List Char} (h : Leads text) (rest : List Char) :
    Leads (text ++ rest) := by
  obtain ⟨c, more, rfl, solid, other⟩ := h
  exact ⟨c, more ++ rest, rfl, solid, other⟩

theorem isNumberChar_other {c : Char} (h : isNumberChar c = true) :
    c ∉ [' ', '\n', '\t', '\r', ']', '"', '[', '{', 'n', 't', 'f'] := by
  have others : ∀ d ∈ [' ', '\n', '\t', '\r', ']', '"', '[', '{', 'n', 't', 'f'],
      isNumberChar d = false := by simp [isNumberChar]
  intro mem
  simp [others c mem] at h

theorem isNumberChar_solid {c : Char} (h : isNumberChar c = true) : isSpace c = false := by
  have other := isNumberChar_other h
  simp_all [isSpace]

theorem number_nonempty {spelling : List Char} (holds : isNumber spelling = true) :
    spelling ≠ [] := by
  rintro rfl
  revert holds
  decide

theorem Written.leads {json : Json} (h : Written json) : Leads json.compact := by
  cases h with
  | null => exact ⟨_, _, by rw [compact]; rfl, by decide, by decide⟩
  | bool value =>
    cases value
    · exact ⟨_, _, by rw [compact, boolText]; rfl, by decide, by decide⟩
    · exact ⟨_, _, by rw [compact, boolText]; rfl, by decide, by decide⟩
  | @number spelling holds chars =>
    obtain ⟨c, rest, rfl⟩ := List.exists_cons_of_ne_nil (number_nonempty holds)
    have first := chars c List.mem_cons_self
    have other : c ≠ ']' := by
      rintro rfl
      exact absurd first (by decide)
    exact ⟨c, rest, by rw [compact], isNumberChar_solid first, other⟩
  | string text => exact ⟨_, _, by rw [compact, quoted]; rfl, by decide, by decide⟩
  | array => exact ⟨_, _, by rw [compact]; rfl, by decide, by decide⟩
  | object => exact ⟨_, _, by rw [compact]; rfl, by decide, by decide⟩

theorem readBack_null : ReadBack .null := by
  intro fuel rest enough _
  cases fuel with
  | zero => simp [compact] at enough
  | succ fuel => rfl

theorem readBack_bool (value : Bool) : ReadBack (.bool value) := by
  intro fuel rest enough _
  cases fuel with
  | zero => cases value <;> simp [compact, boolText] at enough
  | succ fuel => cases value <;> rfl

theorem readBack_string (text : List Char) : ReadBack (.string (Literal.encode text)) := by
  intro fuel rest enough _
  cases fuel with
  | zero => simp [compact, quoted] at enough
  | succ fuel =>
    have line : compact (.string (Literal.encode text)) ++ rest =
        '"' :: (Literal.encode text ++ '"' :: rest) := by
      simp [compact, quoted]
    rw [line, value?, skipSpace_solid (by decide)]
    simp [Literal.read?_encode]

theorem number?_append {spelling rest : List Char} (holds : isNumber spelling = true)
    (chars : ∀ c ∈ spelling, isNumberChar c = true) (apart : Apart rest) :
    number? (spelling ++ rest) = some (.number spelling, rest) := by
  have run : (spelling ++ rest).takeWhile isNumberChar = spelling := by
    rw [List.takeWhile_append_of_pos chars]
    cases rest with
    | nil => simp
    | cons c rest => rw [List.takeWhile_cons_of_neg (by simp [apart c rfl]), List.append_nil]
  rw [number?, run]
  simp [holds]

theorem readBack_number {spelling : List Char} (holds : isNumber spelling = true)
    (chars : ∀ c ∈ spelling, isNumberChar c = true) : ReadBack (.number spelling) := by
  intro fuel rest enough apart
  obtain ⟨c, more, rfl⟩ := List.exists_cons_of_ne_nil (number_nonempty holds)
  have first := chars c List.mem_cons_self
  have other := isNumberChar_other first
  cases fuel with
  | zero => simp [compact] at enough
  | succ fuel =>
    have read := number?_append holds chars apart
    rw [List.cons_append] at read
    rw [compact, value?, List.cons_append, skipSpace_solid (isNumberChar_solid first)]
    split <;> simp_all

theorem items?_compactItems {items : List Json} (nonempty : items ≠ [])
    (each : ∀ item ∈ items, ReadBack item) (fuel : Nat) (rest : List Char)
    (enough : 2 * (compactItems items).length < fuel) :
    items? fuel (compactItems items ++ ']' :: rest) = some (items, rest) := by
  induction items generalizing fuel with
  | nil => exact absurd rfl nonempty
  | cons item later ih =>
    obtain ⟨fuel, rfl⟩ : ∃ f, fuel = f + 1 := ⟨fuel - 1, by omega⟩
    have reads := each item List.mem_cons_self
    cases later with
    | nil =>
      have line : compactItems [item] = compact item := by simp [compactItems]
      rw [line] at enough ⊢
      rw [items?, reads fuel _ (by omega) (by rintro c ⟨⟩; decide)]
      rfl
    | cons next later =>
      have line : compactItems (item :: next :: later) =
          compact item ++ ',' :: compactItems (next :: later) := by
        rw [compactItems]
        rfl
      rw [line, List.length_append, List.length_cons] at enough
      rw [line, List.append_assoc, List.cons_append, items?,
        reads fuel _ (by omega) (by rintro c ⟨⟩; decide)]
      have tail := ih (by simp) (fun item mem => each item (List.mem_cons_of_mem _ mem)) fuel
        (by omega)
      simp [skipSpace_solid, isSpace, tail]

theorem fields?_compactFields {fields : List (List Char × Json)} (nonempty : fields ≠ [])
    (names : ∀ field ∈ fields, ∃ text, field.1 = Literal.encode text)
    (each : ∀ field ∈ fields, ReadBack field.2) (fuel : Nat) (rest : List Char)
    (enough : 2 * (compactFields fields).length < fuel) :
    fields? fuel (compactFields fields ++ '}' :: rest) = some (fields, rest) := by
  induction fields generalizing fuel with
  | nil => exact absurd rfl nonempty
  | cons field later ih =>
    obtain ⟨name, value⟩ := field
    obtain ⟨fuel, rfl⟩ : ∃ f, fuel = f + 1 := ⟨fuel - 1, by omega⟩
    obtain ⟨text, rfl⟩ : ∃ text, name = Literal.encode text := names _ List.mem_cons_self
    have reads : ReadBack value := each _ List.mem_cons_self
    cases later with
    | nil =>
      have line : compactFields [(Literal.encode text, value)] =
          quoted (Literal.encode text) ++ ':' :: compact value := by simp [compactFields]
      rw [line, List.length_append, List.length_cons] at enough
      have read := reads fuel ('}' :: rest) (by omega) (by rintro c ⟨⟩; decide)
      simp [line, fields?, quoted, skipSpace_solid, isSpace, Literal.read?_encode, read]
    | cons next later =>
      have line : compactFields ((Literal.encode text, value) :: next :: later) =
          quoted (Literal.encode text) ++ ':' :: compact value ++
            ',' :: compactFields (next :: later) := by
        rw [compactFields]
        rfl
      rw [line] at enough ⊢
      simp only [List.length_append, List.length_cons] at enough
      have read := reads fuel (',' :: (compactFields (next :: later) ++ '}' :: rest)) (by omega)
        (by rintro c ⟨⟩; decide)
      have tail := ih (by simp) (fun field mem => names field (List.mem_cons_of_mem _ mem))
        (fun field mem => each field (List.mem_cons_of_mem _ mem)) fuel (by omega)
      simp [fields?, quoted, skipSpace_solid, isSpace, Literal.read?_encode, read, tail]

theorem leads_compactItems {items : List Json} (nonempty : items ≠ [])
    (each : ∀ item ∈ items, Leads item.compact) : Leads (compactItems items) := by
  obtain ⟨item, later, rfl⟩ := List.exists_cons_of_ne_nil nonempty
  rw [compactItems]
  exact (each item List.mem_cons_self).append _

theorem readBack_array {items : List Json} (each : ∀ item ∈ items, Written item)
    (reads : ∀ item ∈ items, ReadBack item) : ReadBack (.array items) := by
  intro fuel rest enough _
  have line : compact (.array items) = '[' :: compactItems items ++ [']'] := by rw [compact]
  rw [line] at enough ⊢
  simp only [List.length_append, List.length_cons, List.length_nil] at enough
  obtain ⟨fuel, rfl⟩ : ∃ f, fuel = f + 1 := ⟨fuel - 1, by omega⟩
  by_cases empty : items = []
  · subst empty
    simp [compactItems, value?, skipSpace, isSpace]
  · have read := items?_compactItems empty reads fuel rest (by omega)
    obtain ⟨c, more, leads, solid, other⟩ :=
      leads_compactItems empty (fun item mem => (each item mem).leads)
    rw [leads, List.cons_append] at read
    have bracket : isSpace '[' = false := rfl
    rw [leads]
    simp [value?, skipSpace_solid, bracket, solid, other, read]

theorem readBack_object {fields : List (List Char × Json)}
    (names : ∀ field ∈ fields, ∃ text, field.1 = Literal.encode text)
    (reads : ∀ field ∈ fields, ReadBack field.2) : ReadBack (.object fields) := by
  intro fuel rest enough _
  have line : compact (.object fields) = '{' :: compactFields fields ++ ['}'] := by rw [compact]
  rw [line] at enough ⊢
  simp only [List.length_append, List.length_cons, List.length_nil] at enough
  obtain ⟨fuel, rfl⟩ : ∃ f, fuel = f + 1 := ⟨fuel - 1, by omega⟩
  cases fields with
  | nil => simp [compactFields, value?, skipSpace, isSpace]
  | cons field later =>
    have read := fields?_compactFields (by simp) names reads fuel rest (by omega)
    have leads : ∃ more, compactFields (field :: later) = '"' :: more := by
      rw [compactFields]
      exact ⟨_, rfl⟩
    obtain ⟨more, leads⟩ := leads
    rw [leads, List.cons_append] at read
    rw [leads]
    simp [value?, skipSpace_solid, isSpace, read]

theorem readBack_of_written {json : Json} (h : Written json) : ReadBack json := by
  induction h with
  | null => exact readBack_null
  | bool value => exact readBack_bool value
  | number holds chars => exact readBack_number holds chars
  | string text => exact readBack_string text
  | array each reads => exact readBack_array each reads
  | object names _ reads => exact readBack_object names reads

/-- A document is what is read back from its line. -/
theorem parse?_compact {json : Json} (h : Written json) : parse? json.compact = some json := by
  have read := readBack_of_written h (2 * json.compact.length + 2) [] (by omega) (by rintro c ⟨⟩)
  rw [List.append_nil] at read
  rw [parse?, read]
  rfl

theorem toString?_ofString (text : String) : (ofString text).toString? = some text := by
  simp [ofString, toString?, Literal.decode?_encode]

theorem named?_fields (fields : List (String × Json)) :
    named? (fields.map fun f => field f.1 f.2) = some fields := by
  induction fields with
  | nil => rfl
  | cons f fields ih =>
    rw [List.map_cons, field, named?, Literal.decode?_encode, ih]
    simp

theorem written_fields {fields : List (String × Json)} (each : ∀ f ∈ fields, Written f.2) :
    Written (.object (fields.map fun f => field f.1 f.2)) := by
  refine .object ?_ ?_ <;> intro f mem <;> obtain ⟨g, mem', rfl⟩ := List.mem_map.mp mem
  · exact ⟨g.1.toList, rfl⟩
  · exact each g mem'

end Json

end SqlBoundary
