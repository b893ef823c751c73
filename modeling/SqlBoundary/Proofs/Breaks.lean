import SqlBoundary.Proofs.Stops

/-!
# Where a gap begins

No token goes on with a blank or with the mark of a comment. What is read from a text before such
a place, and ends there at the latest, is the same with any other gap in its place, a few looks
beyond it apart: a delimiter may go on into the gap, a dash before a dash makes a comment of both,
and some words are followed by a look at what comes next.
-/

namespace SqlBoundary

open Text Lexeme

/-- A blank, or a character that a comment may begin with. -/
def opensGap (c : Char) : Bool := isBlank c || c == '-' || c == '/' || c == '#'

/-- The text begins with such a character. -/
def Breaks (after : List Char) : Prop := ∃ c ∈ after.head?, opensGap c = true

/-- The delimiter begins in the one text and ends in the other. -/
def Delimiter.Straddles (d : Delimiter) (p after : List Char) : Prop :=
  ∃ v w, v ≠ [] ∧ w ≠ [] ∧ d.text.toList = v ++ w ∧ v <:+ p ∧ w <+: after

/-- A single character stands on one side. -/
theorem Delimiter.apart_of_single {d : Delimiter} {p after : List Char}
    (single : d.text.toList.length ≤ 1) : ¬ d.Straddles p after := by
  rintro ⟨v, w, hv, hw, split, -, -⟩
  have left := List.length_pos_iff.mpr hv
  have right := List.length_pos_iff.mpr hw
  rw [split, List.length_append] at single
  omega

section

variable {c m : Char}

/-- The code points of these characters. -/
def gapCodes : List Nat := blankCodes ++ [0x2D, 0x2F, 0x23]

theorem mem_gapCodes (h : opensGap c = true) : c.toNat ∈ gapCodes := by
  simp only [opensGap, Bool.or_eq_true, beq_iff_eq] at h
  rw [gapCodes, List.mem_append]
  rcases h with ((blank | rfl) | rfl) | rfl
  · exact Or.inl (mem_blankCodes blank)
  all_goals exact Or.inr (by decide)

theorem isTagChar_of_opensGap (h : opensGap c = true) : isTagChar c = false := by
  have plain : ∀ n ∈ gapCodes, isTagChar (.ofNat n) = false := by decide +kernel
  have here := plain _ (mem_gapCodes h)
  rwa [Char.ofNat_toNat] at here

/-- The marks that some token is looked at for. -/
theorem opensGap_of_mark (mark : m ∈ ['\'', '$', '=', ':', '*']) : opensGap m = false := by
  revert m
  decide

/-- Where a hash is no letter, no word goes on with such a character. -/
theorem isWordChar_of_opensGap {ctx : Context} (h : opensGap c = true)
    (hash : ctx.kind.admits '#' = false) : ctx.isWordChar c = false := by
  have plain : ∀ kind ∈ StatementKind.all, kind.admits '#' = false → ∀ n ∈ gapCodes,
      (isAlphabetic (.ofNat n) || kind.admits (.ofNat n) || (Char.ofNat n).isDigit ||
        Char.ofNat n == '_') = false := by
    decide +kernel
  have known : ctx.kind ∈ StatementKind.all := by cases ctx.kind <;> decide
  have here := plain ctx.kind known hash _ (mem_gapCodes h)
  rwa [Char.ofNat_toNat] at here

/-- Neither does a word begin with one. -/
theorem startsWord_of_opensGap {ctx : Context} (h : opensGap c = true)
    (hash : ctx.kind.admits '#' = false) : ctx.startsWord c = false := by
  have inside := isWordChar_of_opensGap h hash
  simp only [Context.isWordChar, Bool.or_eq_false_iff] at inside
  rw [Context.startsWord, inside.1.1, inside.2]
  rfl

end

/-- No quoted text of the dialect is closed by such a character, and no word goes on with it. -/
structure Dialect.EndsAtGaps (dialect : Dialect) : Prop where
  strings : ∀ c ∈ dialect.stringQuotes, opensGap c = false
  identifiers : ∀ pair ∈ dialect.identifierQuotes, opensGap pair.2 = false
  hash : dialect.kind.admits '#' = false

theorem Vendor.endsAtGaps {v : Vendor} (vendor : v = .generic ∨ v = .mysql ∨ v = .postgres) :
    v.dialect.EndsAtGaps := by
  rcases vendor with rfl | rfl | rfl <;> exact ⟨by decide, by decide, by decide⟩

/-- So no token goes on with one. -/
theorem Dialect.EndsAtGaps.halts {dialect : Dialect} {c : Char} (gaps : dialect.EndsAtGaps)
    (h : opensGap c = true) : dialect.Halts c where
  tag := isTagChar_of_opensGap h
  word := by
    have ends : Context.isWordChar { Context.start default with kind := dialect.kind } c = false :=
      isWordChar_of_opensGap h gaps.hash
    rwa [dialect.isWordChar_eq rfl] at ends
  mark := by
    intro mark
    rw [opensGap_of_mark mark] at h
    cases h
  strings := by
    intro mem
    rw [gaps.strings c mem] at h
    cases h
  identifiers := by
    rintro pair mem rfl
    rw [gaps.identifiers pair mem] at h
    cases h

namespace Breaks

variable {a : List Char} {dialect : Dialect}

theorem cons (h : Breaks a) : ∃ c rest, a = c :: rest ∧ opensGap c = true := by
  obtain ⟨c, head, opens⟩ := h
  obtain ⟨rest, rfl⟩ := List.head?_eq_some_iff.mp head
  exact ⟨c, rest, rfl, opens⟩

theorem ne_nil (h : Breaks a) : a ≠ [] := by
  obtain ⟨c, rest, rfl, -⟩ := h.cons
  exact List.cons_ne_nil c rest

theorem head?_ne {c : Char} (h : Breaks a) (other : opensGap c = false) : a.head? ≠ some c := by
  obtain ⟨x, rest, rfl, opens⟩ := h.cons
  rintro ⟨⟩
  rw [opens] at other
  cases other

theorem stops (h : Breaks a) (gaps : dialect.EndsAtGaps) : dialect.Stops a := by
  obtain ⟨c, rest, rfl, opens⟩ := h.cons
  exact Dialect.stops_cons (gaps.halts opens) rest

end Breaks

namespace Delimiter

variable {d : Delimiter} {p r a : List Char}

/-- A delimiter that does not go on into the gap is found in the text alone. -/
theorem startsAt_of_apart (apart : ¬ d.Straddles p a) (nonempty : r ≠ []) (within : r <:+ p) :
    d.startsAt (r ++ a) = d.startsAt r := by
  have same : d.text.toList <+: r ++ a ↔ d.text.toList <+: r := by
    constructor
    · intro begins
      rcases List.prefix_or_prefix_of_prefix begins (List.prefix_append r a) with
        inside | ⟨w, split⟩
      · exact inside
      · rw [← split, List.prefix_append_right_inj] at begins
        rcases List.eq_nil_or_concat w with rfl | ⟨front, x, last⟩
        · rw [← split, List.append_nil]
        · have some_ : w ≠ [] := by simp [last]
          exact absurd ⟨r, w, nonempty, some_, split.symm, within, begins⟩ apart
    · exact fun inside => inside.trans (List.prefix_append r a)
  rw [Bool.eq_iff_iff, startsAt, startsAt]
  simp only [Bool.and_eq_true, List.isPrefixOf_iff_prefix, same]

/-- Neither does one of a single line go on beyond its end. -/
theorem startsAt_of_lineFeed (oneLine : '\n' ∉ d.text.toList) (mem : '\n' ∈ r) :
    d.startsAt (r ++ a) = d.startsAt r := by
  have same : d.text.toList <+: r ++ a ↔ d.text.toList <+: r := by
    constructor
    · intro begins
      rcases List.prefix_or_prefix_of_prefix begins (List.prefix_append r a) with
        inside | beyond
      · exact inside
      · exact absurd (beyond.subset mem) oneLine
    · exact fun inside => inside.trans (List.prefix_append r a)
  rw [Bool.eq_iff_iff, startsAt, startsAt]
  simp only [Bool.and_eq_true, List.isPrefixOf_iff_prefix, same]

theorem spelled_delimiter {w : List Char} (word : String.ofList (upper w) = "DELIMITER") :
    Spelled w "DELIMITER" :=
  spelled_of_letters word (by decide) (by decide)

/-- A line that goes on right behind the keyword is no directive. -/
theorem ofDirective?_longer {w rest : List Char} {c : Char} (letters : ∀ x ∈ w, isBlank x = false)
    (word : String.ofList (upper w) = "DELIMITER") (solid : isBlank c = false) :
    ofDirective? (w ++ c :: rest) = .ok none := by
  have ends : EndsSolid (w ++ [c]) := ⟨w, c, rfl, solid⟩
  have first : ∀ x ∈ (w ++ c :: rest).head?, isBlank x = false := by
    intro x head
    cases w with
    | nil =>
      cases head
      exact solid
    | cons y w =>
      obtain rfl := Option.some.inj head
      exact letters y List.mem_cons_self
  have line : trim (w ++ c :: rest) = (w ++ [c]) ++ trimEnd rest := by
    rw [trim_of_solid first, ← List.singleton_append, ← List.append_assoc,
      trimEnd_append_of_solid ends]
  have keyword : (trim (w ++ c :: rest)).takeWhile (!isBlank ·) =
      (w ++ [c]) ++ (trimEnd rest).takeWhile (!isBlank ·) := by
    rw [line]
    refine List.takeWhile_append_of_pos ?_
    intro x mem
    rcases List.mem_append.mp mem with mem | mem
    · simp [letters x mem]
    · simp [List.mem_singleton.mp mem, solid]
  have long : w.length = 9 := by
    have lengths := congrArg (·.toList.length) word
    simpa [upper] using lengths
  have other : sameIgnoringCase ((trim (w ++ c :: rest)).takeWhile (!isBlank ·))
      "DELIMITER".toList = false := by
    rw [keyword, sameIgnoringCase, beq_eq_false_iff_ne]
    intro same
    have lengths := congrArg List.length same
    simp [lower, long] at lengths
  simp only [ofDirective?, other, Bool.false_eq_true, if_false]

/-- A line with the keyword is a directive or a fault, unless it goes on right behind it. -/
theorem solid_of_ofDirective? {w more : List Char} (word : String.ofList (upper w) = "DELIMITER")
    (plain : ofDirective? (w ++ more) = .ok none) :
    ∃ c rest, more = c :: rest ∧ isBlank c = false := by
  have spelled := spelled_delimiter word
  have letters : ∀ x ∈ w, isBlank x = false := by
    intro x mem
    have letter := isWordChar_of_inIdentifier (spelled.inside x mem) (Context.start default)
    exact isBlank_of_isWordChar letter
  by_contra none
  have blank : ∀ x ∈ more.head?, isBlank x = true := by
    intro x head
    obtain ⟨rest, rfl⟩ := List.head?_eq_some_iff.mp head
    by_contra solid
    exact none ⟨x, rest, rfl, Bool.eq_false_iff.mpr solid⟩
  have ends : EndsSolid w := by
    obtain ⟨c, rest, split, -⟩ := spelled.first
    obtain ⟨init, x, last⟩ := (List.eq_nil_or_concat w).resolve_left (by simp [split])
    exact ⟨init, x, by rw [last, List.concat_eq_append], letters x (by simp [last])⟩
  have first : ∀ x ∈ (w ++ more).head?, isBlank x = false := by
    intro x head
    obtain ⟨c, rest, rfl, -⟩ := spelled.first
    obtain rfl := Option.some.inj head
    exact letters c List.mem_cons_self
  have line : trim (w ++ more) = w ++ trimEnd more := by
    rw [trim_of_solid first, trimEnd_append_of_solid ends]
  have keyword : (trim (w ++ more)).takeWhile (!isBlank ·) = w := by
    rw [line]
    refine takeWhile_append ?_ ?_
    · intro x mem
      simp [letters x mem]
    · intro x head
      obtain ⟨blanks, split, -⟩ := trimEnd_append_blanks more
      have here : x ∈ more.head? := by
        rw [split]
        obtain ⟨rest, same⟩ := List.head?_eq_some_iff.mp head
        rw [same]
        rfl
      simp [blank x here]
  have same : sameIgnoringCase w "DELIMITER".toList = true := by
    rw [sameIgnoringCase_eq spelled (by decide), beq_self_eq_true]
  simp only [ofDirective?, keyword, same, if_true] at plain
  split at plain <;> cases plain

end Delimiter

end SqlBoundary
