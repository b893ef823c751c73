import SqlBoundary.Text.Basic

/-!
# Trimming, lines, first occurrences and slices

The text functions told by what they cut a text into: a trimmed text and blanks after it, a
line and what follows it, the text before a pattern's first occurrence. A part that is cut out
of a script is also told by its bytes.
-/

namespace SqlBoundary.Text

/-- What is said of the characters of a text is decided along the text, and not by a search
through all characters there are. -/
instance (priority := high) decidableForallChars (p : Char → Prop) [DecidablePred p]
    (cs : List Char) : Decidable (∀ c ∈ cs, p c) :=
  List.decidableBAll p cs

instance (priority := high) decidableForallChar? (p : Char → Prop) [DecidablePred p]
    (o : Option Char) : Decidable (∀ c ∈ o, p c) :=
  o.decidableForallMem

/-- A text ends its line here: at a line feed or at the end of the script. -/
def LineEnds (after : List Char) : Prop := after = [] ∨ ∃ rest, after = '\n' :: rest

theorem isBlank_lineFeed : isBlank '\n' = true := by decide

theorem ne_lineFeed_of_solid {c : Char} (solid : isBlank c = false) : c ≠ '\n' := by
  rintro rfl
  rw [isBlank_lineFeed] at solid
  cases solid

theorem trimStart_split (cs : List Char) :
    ∃ gap, cs = gap ++ trimStart cs ∧ (∀ c ∈ gap, isBlank c = true) ∧
      ∀ c ∈ (trimStart cs).head?, isBlank c = false := by
  refine ⟨cs.takeWhile isBlank, List.takeWhile_append_dropWhile.symm, ?_, ?_⟩
  · exact fun c mem => List.all_eq_true.mp List.all_takeWhile c mem
  · intro c head
    have stops := List.head?_dropWhile_not isBlank cs
    rw [trimStart] at head
    rw [Option.mem_def.mp head] at stops
    simpa using stops

theorem trim_of_solid {line : List Char} (solid : ∀ c ∈ line.head?, isBlank c = false) :
    trim line = trimEnd line := by
  rw [trim, trimStart]
  cases line with
  | nil => rfl
  | cons c rest => rw [List.dropWhile_cons_of_neg (by simp [solid c rfl])]

/-- The first word is all that stands before the first blank. -/
theorem keyword_split (cs : List Char) : ∃ rest, cs = cs.takeWhile (!isBlank ·) ++ rest ∧
    cs.drop (cs.takeWhile (!isBlank ·)).length = rest ∧ ∀ c ∈ rest.head?, isBlank c = true := by
  refine ⟨cs.dropWhile (!isBlank ·), List.takeWhile_append_dropWhile.symm, ?_, ?_⟩
  · conv => lhs; arg 2; rw [← List.takeWhile_append_dropWhile (p := (!isBlank ·)) (l := cs)]
    exact List.drop_left' rfl
  · intro c head
    have stops := List.head?_dropWhile_not (!isBlank ·) cs
    rw [Option.mem_def.mp head] at stops
    simpa using stops

theorem trimEnd_append_blanks (cs : List Char) :
    ∃ blanks, cs = trimEnd cs ++ blanks ∧ ∀ c ∈ blanks, isBlank c = true := by
  refine ⟨(cs.reverse.takeWhile isBlank).reverse, ?_, ?_⟩
  · rw [trimEnd, ← List.reverse_append, List.takeWhile_append_dropWhile, List.reverse_reverse]
  · intro c hc
    rw [List.mem_reverse] at hc
    exact List.all_eq_true.mp List.all_takeWhile c hc

theorem trimEnd_append {blanks : List Char} (blank : ∀ c ∈ blanks, isBlank c = true)
    (cs : List Char) : trimEnd (cs ++ blanks) = trimEnd cs := by
  have blank' : ∀ c ∈ blanks.reverse, isBlank c = true :=
    fun c mem => blank c (List.mem_reverse.mp mem)
  rw [trimEnd, List.reverse_append, List.dropWhile_append_of_pos blank', trimEnd]

theorem trimEnd_getLast? {cs : List Char} {c : Char} (h : (trimEnd cs).getLast? = some c) :
    isBlank c = false := by
  rw [trimEnd, List.getLast?_reverse] at h
  have stops := List.head?_dropWhile_not isBlank cs.reverse
  rw [h] at stops
  exact stops

theorem trimEnd_cons {c : Char} (solid : isBlank c = false) (cs : List Char) :
    ∃ rest, trimEnd (c :: cs) = c :: rest := by
  obtain ⟨blanks, split, blank⟩ := trimEnd_append_blanks (c :: cs)
  cases trimmed : trimEnd (c :: cs) with
  | nil =>
    rw [trimmed, List.nil_append] at split
    have := blank c (split ▸ List.mem_cons_self)
    rw [solid] at this
    cases this
  | cons x rest =>
    rw [trimmed, List.cons_append] at split
    exact ⟨rest, by rw [(List.cons.inj split).1]⟩

theorem lineFeed_not_mem_currentLine (cs : List Char) : '\n' ∉ currentLine cs := by
  intro h
  have := List.all_eq_true.mp List.all_takeWhile _ h
  simp at this

theorem currentLine_of_mem {p : List Char} (mem : '\n' ∈ p) (after : List Char) :
    currentLine (p ++ after) = currentLine p := by
  induction p with
  | nil => cases mem
  | cons c p ih =>
    by_cases feed : c = '\n'
    · simp [currentLine, feed]
    · have later : '\n' ∈ p := by
        rcases List.mem_cons.mp mem with same | later
        · exact absurd same.symm feed
        · exact later
      simpa [currentLine, feed] using ih later

theorem currentLine_append_of_not_mem {p : List Char} (oneLine : '\n' ∉ p) (after : List Char) :
    currentLine (p ++ after) = p ++ currentLine after := by
  refine List.takeWhile_append_of_pos ?_
  intro c mem
  rw [bne_iff_ne]
  rintro rfl
  exact oneLine mem

theorem currentLine_append_of_lineEnds {after : List Char} (ends : LineEnds after) (p : List Char) :
    currentLine (p ++ after) = currentLine p := by
  by_cases feed : '\n' ∈ p
  · exact currentLine_of_mem feed after
  · have nothing : currentLine after = currentLine [] := by
      rcases ends with rfl | ⟨rest, rfl⟩
      · rfl
      · simp [currentLine]
    rw [currentLine_append_of_not_mem feed, nothing, ← currentLine_append_of_not_mem feed,
      List.append_nil]

theorem currentLine_of_lineEnds {p after : List Char} (oneLine : '\n' ∉ p)
    (ends : LineEnds after) : currentLine (p ++ after) = p := by
  rw [currentLine_append_of_lineEnds ends, ← List.append_nil p,
    currentLine_append_of_not_mem oneLine]
  rfl

theorem take_lineLength (cs : List Char) : cs.take (lineLength cs) = currentLine cs := by
  rw [lineLength, currentLine]
  conv => lhs; arg 2; rw [← List.takeWhile_append_dropWhile (p := (· != '\n')) (l := cs)]
  exact List.take_left' rfl

theorem lineEnds_drop_lineLength (cs : List Char) : LineEnds (cs.drop (lineLength cs)) := by
  have rest : cs.drop (lineLength cs) = cs.dropWhile (· != '\n') := by
    rw [lineLength, currentLine]
    conv => lhs; arg 2; rw [← List.takeWhile_append_dropWhile (p := (· != '\n')) (l := cs)]
    exact List.drop_left' rfl
  rw [rest]
  cases dropped : cs.dropWhile (· != '\n') with
  | nil => exact Or.inl rfl
  | cons c rest =>
    have stops := List.head?_dropWhile_not (· != '\n') cs
    rw [dropped] at stops
    have : c = '\n' := by simpa using stops
    exact Or.inr ⟨rest, by rw [this]⟩

/-- A pattern is found where it first occurs. -/
theorem position?_eq_some_iff {pattern cs : List Char} {n : Nat} :
    position? pattern cs = some n ↔
      pattern <+: cs.drop n ∧ n ≤ cs.length ∧ ∀ m < n, ¬ pattern <+: cs.drop m := by
  induction cs generalizing n with
  | nil =>
    rw [position?, positionFrom?]
    by_cases empty : pattern = []
    · subst empty
      constructor
      · intro h
        obtain rfl := Option.some.inj h
        exact ⟨List.nil_prefix, Nat.le_refl _, fun m hm => absurd hm (Nat.not_lt_zero m)⟩
      · rintro ⟨-, short, -⟩
        rw [Nat.le_zero.mp short]
        rfl
    · simp [empty]
  | cons c rest ih =>
    rw [position?, positionFrom?]
    by_cases here : pattern.isPrefixOf (c :: rest) = true
    · rw [if_pos here]
      rw [List.isPrefixOf_iff_prefix] at here
      constructor
      · intro h
        obtain rfl := Option.some.inj h
        exact ⟨here, Nat.zero_le _, fun m hm => absurd hm (Nat.not_lt_zero m)⟩
      · rintro ⟨-, -, first⟩
        cases n with
        | zero => rfl
        | succ n => exact absurd here (first 0 (Nat.succ_pos n))
    · rw [if_neg here, positionFrom?_eq]
      rw [List.isPrefixOf_iff_prefix] at here
      constructor
      · intro h
        obtain ⟨k, found, rfl⟩ := Option.map_eq_some_iff.mp h
        obtain ⟨here', short, first⟩ := ih.mp found
        rw [Nat.zero_add, Nat.add_comm 1 k]
        refine ⟨here', Nat.succ_le_succ short, ?_⟩
        intro m hm
        cases m with
        | zero => exact here
        | succ m => exact first m (Nat.lt_of_succ_lt_succ hm)
      · rintro ⟨here', short, first⟩
        cases n with
        | zero => exact absurd here' here
        | succ n =>
          have found : position? pattern rest = some n :=
            ih.mpr ⟨here', Nat.le_of_succ_le_succ short,
              fun m hm => first (m + 1) (Nat.succ_lt_succ hm)⟩
          rw [found, Option.map_some, Nat.zero_add, Nat.add_comm 1 n]

/-- The bytes of the script from `start` to `stop` are a text of their own, and this is its
spelling: the two lie in this order within the script, and each at a boundary of characters. -/
structure Slice (script : String) (start stop : Nat) (text : List Char) : Prop where
  ordered : start ≤ stop
  within : stop ≤ script.utf8ByteSize
  startValid : String.Pos.Raw.IsValid script ⟨start⟩
  stopValid : String.Pos.Raw.IsValid script ⟨stop⟩
  bytes : script.toByteArray.extract start stop = (String.ofList text).toByteArray

theorem Slice.of_append {script : String} {before text after : List Char}
    (split : script.toList = before ++ text ++ after) :
    Slice script (byteSize before) (byteSize before + byteSize text) text := by
  have whole : script = String.ofList before ++ String.ofList text ++ String.ofList after := by
    rw [← String.ofList_append, ← String.ofList_append, ← split, String.ofList_toList]
  have size : script.utf8ByteSize = byteSize before + byteSize text + byteSize after := by
    rw [whole]
    simp only [String.utf8ByteSize_append, byteSize_eq_utf8ByteSize]
  refine ⟨Nat.le_add_right _ _, by omega, ?_, ?_, ?_⟩
  · rw [String.Pos.Raw.isValid_iff_exists_append]
    refine ⟨String.ofList before, String.ofList text ++ String.ofList after, ?_, ?_⟩
    · rw [whole, String.append_assoc]
    · rw [byteSize_eq_utf8ByteSize]
      rfl
  · rw [String.Pos.Raw.isValid_iff_exists_append]
    refine ⟨String.ofList before ++ String.ofList text, String.ofList after, whole, ?_⟩
    rw [byteSize_eq_utf8ByteSize, byteSize_eq_utf8ByteSize, ← String.utf8ByteSize_append]
    rfl
  · have size_before : byteSize before = (String.ofList before).toByteArray.size := by
      rw [byteSize_eq_utf8ByteSize, String.size_toByteArray]
    have size_text : byteSize text = (String.ofList text).toByteArray.size := by
      rw [byteSize_eq_utf8ByteSize, String.size_toByteArray]
    rw [whole, String.toByteArray_append, String.toByteArray_append, ByteArray.append_assoc,
      size_before, size_text]
    conv => lhs; arg 2; rw [← Nat.add_zero (String.ofList before).toByteArray.size]
    rw [ByteArray.extract_append_size_add]
    exact ByteArray.extract_append_eq_left rfl

end SqlBoundary.Text
