import SqlBoundary.Proofs.Solid

/-!
# Programs laid out as text

The tokens of a program are words and signs, and between them stand any blanks, at least one
between two words. What a reader sees ahead in such a text is told by the tokens alone: where a
word ends, which token comes after it, and what a search for a keyword finds.
-/

namespace SqlBoundary

open Text Lexeme

/-- A token of a program: a word in upper case, or a sign. -/
inductive Piece
  | word (text : String)
  | sign (c : Char)
deriving DecidableEq

def Piece.text : Piece → String
  | .word text => text
  | .sign c => String.singleton c

/-- The signs of the programs considered. -/
def signs : List Char := [';', ':', '=', '>', '(', ')', ',']

def beginsIdentifier (c : Char) : Bool := c.isAlpha || c == '_'

def inIdentifier (c : Char) : Bool := c.isAlphanum || c == '_'

/-- An ASCII identifier that is this word in upper case. -/
structure Spelled (cs : List Char) (text : String) : Prop where
  first : ∃ c rest, cs = c :: rest ∧ beginsIdentifier c = true
  inside : ∀ c ∈ cs, inIdentifier c = true
  upper : String.ofList (upper cs) = text

instance (cs : List Char) (text : String) : Decidable (Spelled cs text) :=
  decidable_of_iff (cs.head?.any beginsIdentifier = true ∧ (∀ c ∈ cs, inIdentifier c = true) ∧
    String.ofList (upper cs) = text) (by
      constructor
      · rintro ⟨first, inside, upper⟩
        cases cs with
        | nil => cases first
        | cons c rest => exact ⟨⟨c, rest, rfl, first⟩, inside, upper⟩
      · rintro ⟨⟨c, rest, rfl, begins⟩, inside, upper⟩
        exact ⟨begins, inside, upper⟩)

/-- A name in upper case: an identifier that is none of the reserved words. -/
structure Name (reserved : List String) where
  text : String
  identifier : Spelled text.toList text
  free : text ∉ reserved

/-- The tokens written one after another, each in any case and with blanks behind it, and then
the text `after`. -/
inductive Laid (after : List Char) : List Piece → List Char → Prop
  | done : Laid after [] after
  | word {text : String} {cs gap rest : List Char} {ts : List Piece} (spelled : Spelled cs text)
      (blank : ∀ c ∈ gap, isBlank c = true)
      (apart : gap = [] → ∀ text, ts.head? ≠ some (.word text))
      (later : Laid after ts rest) : Laid after (.word text :: ts) (cs ++ (gap ++ rest))
  | sign {c : Char} {gap rest : List Char} {ts : List Piece} (known : c ∈ signs)
      (blank : ∀ c ∈ gap, isBlank c = true) (later : Laid after ts rest) :
      Laid after (.sign c :: ts) (c :: (gap ++ rest))

/-- What begins here ends a word before it. -/
def EndsWord (cs : List Char) : Prop := ∀ c ∈ cs.head?, isBlank c = true ∨ c ∈ signs

theorem toNat_lt_of_inIdentifier {c : Char} (h : inIdentifier c = true) : c.toNat < 128 := by
  delta inIdentifier Char.isAlphanum Char.isAlpha Char.isUpper Char.isLower Char.isDigit at h
  simp only [Bool.or_eq_true, Bool.and_eq_true, decide_eq_true_eq, beq_iff_eq] at h
  rcases h with ((⟨-, high⟩ | ⟨-, high⟩) | ⟨-, high⟩) | rfl
  · exact Nat.lt_of_le_of_lt (UInt32.le_iff_toNat_le.mp high) (by decide)
  · exact Nat.lt_of_le_of_lt (UInt32.le_iff_toNat_le.mp high) (by decide)
  · exact Nat.lt_of_le_of_lt (UInt32.le_iff_toNat_le.mp high) (by decide)
  · decide

/-- Characters that begin something else than a word or a sign. -/
def otherMarks : List Char := ['\'', '"', '\x60', '#', '-', '/', '$', '\\']

/-- What is known of the characters of an identifier. -/
theorem identifier_facts {c : Char} (h : inIdentifier c = true) :
    isBlank c = false ∧ (isAlphabetic c || c.isDigit || c == '_') = true ∧ isNameChar c = true ∧
      c ∉ otherMarks ∧ c ∉ signs ∧
      (beginsIdentifier c = true → isAlphabetic c = true ∨ c = '_') := by
  have all : ∀ n < 128, inIdentifier (.ofNat n) = true →
      isBlank (.ofNat n) = false ∧
      (isAlphabetic (.ofNat n) || (Char.ofNat n).isDigit || Char.ofNat n == '_') = true ∧
      isNameChar (.ofNat n) = true ∧ Char.ofNat n ∉ otherMarks ∧ Char.ofNat n ∉ signs ∧
      (beginsIdentifier (.ofNat n) = true →
        isAlphabetic (.ofNat n) = true ∨ Char.ofNat n = '_') := by
    decide +kernel
  have here := all c.toNat (toNat_lt_of_inIdentifier h)
  rw [Char.ofNat_toNat] at here
  exact here h

theorem isNameChar_of_isBlank {c : Char} (blank : isBlank c = true) : isNameChar c = false := by
  have names : ∀ n ∈ blankCodes, isNameChar (.ofNat n) = false := by decide +kernel
  have plain := names _ (mem_blankCodes blank)
  rwa [Char.ofNat_toNat] at plain

theorem startsName_of_isNameChar {c : Char} (h : isNameChar c = false) : startsName c = false := by
  simp only [isNameChar, isAlphanumeric, Bool.or_eq_false_iff] at h
  simp only [startsName, h, Bool.or_self]

/-- Neither a blank nor a sign goes on a word. -/
theorem endsWord_char {c : Char} (h : isBlank c = true ∨ c ∈ signs) (ctx : Context) :
    ctx.isWordChar c = false ∧ isNameChar c = false := by
  rcases h with blank | known
  · exact ⟨isWordChar_of_isBlank blank ctx, isNameChar_of_isBlank blank⟩
  · have apart : ∀ kind ∈ StatementKind.all, ∀ c ∈ signs,
        (isAlphabetic c || kind.admits c || c.isDigit || c == '_') = false ∧
          isNameChar c = false := by
      decide +kernel
    have kind : ctx.kind ∈ StatementKind.all := by cases ctx.kind <;> decide
    exact apart ctx.kind kind c known

theorem startsWord_sign {c : Char} (known : c ∈ signs) (ctx : Context) :
    ctx.startsWord c = false := by
  have plain := (endsWord_char (Or.inr known) ctx).1
  simp only [Context.isWordChar, Context.startsWord, Bool.or_eq_false_iff] at plain ⊢
  exact ⟨plain.1.1, plain.2⟩

theorem isBlank_of_sign {c : Char} (known : c ∈ signs) : isBlank c = false := by
  revert c
  decide

theorem isWordChar_of_inIdentifier {c : Char} (h : inIdentifier c = true) (ctx : Context) :
    ctx.isWordChar c = true := by
  have letter := (identifier_facts h).2.1
  simp only [Bool.or_eq_true] at letter
  simp only [Context.isWordChar, Context.isLetter, Bool.or_eq_true]
  rcases letter with (letter | digit) | underscore
  · exact Or.inl (Or.inl (Or.inl letter))
  · exact Or.inl (Or.inr digit)
  · exact Or.inr underscore

namespace Spelled

variable {cs : List Char} {text : String}

/-- The first character, as the two ways of reading words know it. -/
theorem starts (h : Spelled cs text) (ctx : Context) : ∃ c rest, cs = c :: rest ∧
    inIdentifier c = true ∧ ctx.startsWord c = true ∧ startsName c = true := by
  obtain ⟨c, rest, rfl, begins⟩ := h.first
  have inside := h.inside c List.mem_cons_self
  have letter := (identifier_facts inside).2.2.2.2.2 begins
  refine ⟨c, rest, rfl, inside, ?_, ?_⟩
  · rcases letter with letter | rfl
    · simp [Context.startsWord, Context.isLetter, letter]
    · simp [Context.startsWord]
  · rcases letter with letter | rfl
    · simp [startsName, letter]
    · simp [startsName]

theorem ne_nil (h : Spelled cs text) : cs ≠ [] := by
  obtain ⟨c, rest, rfl, -⟩ := h.first
  exact List.cons_ne_nil c rest

end Spelled

theorem trimStart_append {gap rest : List Char} (blank : ∀ c ∈ gap, isBlank c = true)
    (solid : ∀ c ∈ rest.head?, isBlank c = false) : trimStart (gap ++ rest) = rest := by
  rw [trimStart, List.dropWhile_append_of_pos blank]
  cases rest with
  | nil => rfl
  | cons c rest => rw [List.dropWhile_cons_of_neg (by simp [solid c rfl])]

theorem takeWhile_append {p : Char → Bool} {cs rest : List Char} (all : ∀ c ∈ cs, p c = true)
    (stops : ∀ c ∈ rest.head?, p c = false) : (cs ++ rest).takeWhile p = cs := by
  rw [List.takeWhile_append_of_pos all]
  cases rest with
  | nil => simp
  | cons c rest => simp [stops c rfl]

namespace Laid

variable {after gap rest : List Char} {piece : Piece} {ts : List Piece} {c : Char}

theorem solid (h : Laid after (piece :: ts) rest) : ∃ c more, rest = c :: more ∧
    isBlank c = false ∧ c ∉ otherMarks := by
  cases h with
  | word spelled =>
    obtain ⟨c, cs, rfl, begins⟩ := spelled.first
    obtain ⟨solid, -, -, plain, -⟩ := identifier_facts (spelled.inside c List.mem_cons_self)
    exact ⟨c, _, List.cons_append, solid, plain⟩
  | sign known =>
    refine ⟨_, _, rfl, isBlank_of_sign known, ?_⟩
    have plain : ∀ c ∈ signs, c ∉ otherMarks := by decide
    exact plain _ known

theorem of_nil (h : Laid after [] rest) : rest = after := by
  cases h
  rfl

theorem of_word {text : String} {cs : List Char} (h : Laid after (.word text :: ts) cs) :
    ∃ word gap rest, cs = word ++ (gap ++ rest) ∧ Spelled word text ∧
      (∀ c ∈ gap, isBlank c = true) ∧ (gap = [] → ∀ text, ts.head? ≠ some (.word text)) ∧
      Laid after ts rest := by
  cases h with
  | word spelled blank apart later => exact ⟨_, _, _, rfl, spelled, blank, apart, later⟩

theorem of_sign {cs : List Char} (h : Laid after (.sign c :: ts) cs) :
    ∃ gap rest, cs = c :: (gap ++ rest) ∧ c ∈ signs ∧ (∀ c ∈ gap, isBlank c = true) ∧
      Laid after ts rest := by
  cases h with
  | sign known blank later => exact ⟨_, _, rfl, known, blank, later⟩

/-- Behind a word a word ends. -/
theorem endsWord (ends : EndsWord after) (h : Laid after ts rest)
    (blank : ∀ c ∈ gap, isBlank c = true)
    (apart : gap = [] → ∀ text, ts.head? ≠ some (.word text)) : EndsWord (gap ++ rest) := by
  intro c head
  cases gap with
  | cons x gap =>
    cases head
    exact Or.inl (blank c List.mem_cons_self)
  | nil =>
    cases h with
    | done => exact ends c head
    | word => exact absurd rfl (apart rfl _)
    | sign known =>
      cases head
      exact Or.inr known

/-- Before a word there is no sign. -/
theorem head_of_word {text : String} (h : Laid after (.word text :: ts) rest)
    (blank : ∀ c ∈ gap, isBlank c = true) : ∀ c ∈ (gap ++ rest).head?, c ∉ signs := by
  intro c head
  cases gap with
  | cons x gap =>
    cases head
    intro known
    have solid := isBlank_of_sign known
    rw [blank c List.mem_cons_self] at solid
    cases solid
  | nil =>
    obtain ⟨word, gap, rest, rfl, spelled, -⟩ := h.of_word
    obtain ⟨x, word, rfl, -⟩ := spelled.first
    cases head
    exact (identifier_facts (spelled.inside c List.mem_cons_self)).2.2.2.2.1

theorem tokenAhead? (ends : EndsWord after) (h : Laid after (piece :: ts) rest)
    (blank : ∀ c ∈ gap, isBlank c = true) (ctx : Context) :
    ctx.tokenAhead? (gap ++ rest) = some piece.text := by
  obtain ⟨c, more, rfl, solid, -⟩ := h.solid
  have trimmed : trimStart (gap ++ c :: more) = c :: more := by
    refine trimStart_append blank ?_
    rintro x ⟨⟩
    exact solid
  simp only [Context.tokenAhead?, trimmed]
  generalize split : c :: more = cs at h
  cases h with
  | @word _ _ gap' rest' _ spelled blank apart later =>
    obtain ⟨x, word, rfl, inside, begins, -⟩ := spelled.starts ctx
    obtain ⟨rfl, rfl⟩ := List.cons.inj (split.trans List.cons_append)
    have whole : (word ++ (gap' ++ rest')).takeWhile ctx.isWordChar = word := by
      refine takeWhile_append ?_ ?_
      · exact fun y mem =>
          isWordChar_of_inIdentifier (spelled.inside y (List.mem_cons_of_mem _ mem)) ctx
      · exact fun y head => (endsWord_char (later.endsWord ends blank apart y head) ctx).1
    rw [if_pos begins, whole, spelled.upper]
    rfl
  | sign known =>
    obtain ⟨rfl, rfl⟩ := List.cons.inj split
    simp [startsWord_sign known ctx, Piece.text]

end Laid

theorem Laid.append {ts : List Piece} {cs : List Char} (h : Laid [] ts cs) (after : List Char) :
    Laid after ts (cs ++ after) := by
  induction h with
  | done => exact .done
  | word spelled blank apart _ ih =>
    simp only [List.append_assoc]
    exact .word spelled blank apart ih
  | sign known blank _ ih =>
    simp only [List.cons_append, List.append_assoc]
    exact .sign known blank ih

/-- A token that can be written as it is. -/
def Piece.Writable : Piece → Prop
  | .word text => Spelled text.toList text
  | .sign c => c ∈ signs

instance : DecidablePred Piece.Writable
  | .word text => inferInstanceAs (Decidable (Spelled text.toList text))
  | .sign c => inferInstanceAs (Decidable (c ∈ signs))

/-- What has to stand between a token and those after it. -/
def Piece.space : Piece → List Piece → List Char
  | .word _, .word _ :: _ => [' ']
  | _, _ => []

/-- The tokens with no more blanks between them than needed. -/
def compact : List Piece → List Char
  | [] => []
  | piece :: ts => piece.text.toList ++ (piece.space ts ++ compact ts)

/-- Every program can be written. -/
theorem laid_compact {ts : List Piece} (writable : ∀ piece ∈ ts, piece.Writable) :
    Laid [] ts (compact ts) := by
  induction ts with
  | nil => exact .done
  | cons piece ts ih =>
    have first := writable piece List.mem_cons_self
    have later := ih fun piece mem => writable piece (List.mem_cons_of_mem _ mem)
    have blank : ∀ c ∈ piece.space ts, isBlank c = true := by
      intro c mem
      unfold Piece.space at mem
      split at mem
      · obtain rfl := List.mem_singleton.mp mem
        decide
      · cases mem
    cases piece with
    | sign c =>
      have text : (Piece.sign c).text.toList = [c] := by rw [Piece.text, String.toList_singleton]
      rw [compact, text]
      exact .sign first blank later
    | word text =>
      refine .word first blank ?_ later
      rintro none next head
      obtain ⟨us, rfl⟩ := List.head?_eq_some_iff.mp head
      cases none

/-- A word is read to its end where the delimiter begins nowhere in it. -/
theorem Context.wordAhead_whole {ctx : Context} {w rest : List Char}
    (letters : ∀ c ∈ w, ctx.isWordChar c = true)
    (spared : ∀ c ∈ w, ∀ more, ctx.delimiter.startsAt (c :: more) = false)
    (stops : ∀ c ∈ rest.head?, ctx.isWordChar c = false) : ctx.wordAhead (w ++ rest) = w := by
  induction w with
  | nil =>
    cases rest with
    | nil => rfl
    | cons c rest =>
      rw [List.nil_append, Context.wordAhead, stops c rfl]
      rfl
  | cons c w ih =>
    have later : ctx.wordAhead (w ++ rest) = w :=
      ih (fun x mem => letters x (List.mem_cons_of_mem c mem))
        (fun x mem => spared x (List.mem_cons_of_mem c mem))
    rw [List.cons_append, Context.wordAhead, letters c List.mem_cons_self,
      spared c List.mem_cons_self, later]
    rfl

/-- So is a word of a program, if the delimiter has no character of an identifier to begin with. -/
theorem wordAhead_laid {ctx : Context} {cs rest : List Char} {text : String}
    (spelled : Spelled cs text)
    (plain : ∀ c more, inIdentifier c = true → ctx.delimiter.startsAt (c :: more) = false)
    (ends : EndsWord rest) : ctx.wordAhead (cs ++ rest) = cs := by
  refine Context.wordAhead_whole ?_ ?_ ?_
  · exact fun c mem => isWordChar_of_inIdentifier (spelled.inside c mem) ctx
  · exact fun c mem more => plain c more (spelled.inside c mem)
  · exact fun c head => (endsWord_char (ends c head) ctx).1

theorem identifier_case {c : Char} (h : inIdentifier c = true) :
    c.toUpper.toLower = c.toLower ∧ c.toLower.toUpper = c.toUpper := by
  have all : ∀ n < 128, (Char.ofNat n).toUpper.toLower = (Char.ofNat n).toLower ∧
      (Char.ofNat n).toLower.toUpper = (Char.ofNat n).toUpper := by
    decide +kernel
  have here := all c.toNat (toNat_lt_of_inIdentifier h)
  rw [Char.ofNat_toNat] at here
  exact here

/-- A keyword is written in upper case. -/
def Cased (keyword : String) : Prop := upper (lower keyword.toList) = keyword.toList

instance (keyword : String) : Decidable (Cased keyword) :=
  inferInstanceAs (Decidable (upper (lower keyword.toList) = keyword.toList))

/-- A name is a keyword in some ASCII case if it is that in upper case. -/
theorem sameIgnoringCase_eq {cs : List Char} {text keyword : String} (spelled : Spelled cs text)
    (cased : Cased keyword) : sameIgnoringCase cs keyword.toList = (text == keyword) := by
  have folded : lower (upper cs) = lower cs := by
    simp only [lower, upper, List.map_map]
    exact List.map_congr_left fun c mem => (identifier_case (spelled.inside c mem)).1
  have raised : upper (lower cs) = upper cs := by
    simp only [lower, upper, List.map_map]
    exact List.map_congr_left fun c mem => (identifier_case (spelled.inside c mem)).2
  have text' : text.toList = upper cs := by rw [← spelled.upper, String.toList_ofList]
  rw [sameIgnoringCase, Bool.eq_iff_iff, beq_iff_eq, beq_iff_eq]
  constructor
  · intro same
    rw [← String.toList_inj, text', ← raised, same, cased]
  · rintro rfl
    rw [text', folded]

theorem find?_keyword {cs : List Char} {text : String} {keywords : List String}
    (spelled : Spelled cs text) (cased : ∀ k ∈ keywords, Cased k) :
    keywords.find? (sameIgnoringCase cs ·.toList) =
      if text ∈ keywords then some text else none := by
  induction keywords with
  | nil => rfl
  | cons k keywords ih =>
    have later := ih (fun k mem => cased k (List.mem_cons_of_mem _ mem))
    rw [List.find?_cons, sameIgnoringCase_eq spelled (cased k List.mem_cons_self), later]
    by_cases here : text = k
    · simp [here]
    · have other : (text == k) = false := beq_eq_false_iff_ne.mpr here
      simp [other, here]

section

variable {keywords : List String} {depth : Nat} {c : Char} {cs rest : List Char} {text : String}

theorem seekKeyword_skip : seekKeyword keywords cs.length depth (cs ++ rest) =
    seekKeyword keywords 0 depth rest := by
  induction cs with
  | nil => rfl
  | cons c cs ih => rw [List.length_cons, List.cons_append, seekKeyword, ih]

/-- Characters that the search takes no note of. -/
theorem seekKeyword_other (name : startsName c = false)
    (plain : c ∉ ['(', ')', ';', ',', '-', '/', '\'', '"', '\x60']) :
    seekKeyword keywords 0 depth (c :: rest) = seekKeyword keywords 0 depth rest := by
  simp only [List.mem_cons, List.not_mem_nil, or_false, not_or] at plain
  obtain ⟨opens, closes, semicolon, comma, dash, slash, single, double, back⟩ := plain
  simp [seekKeyword, isQuote, opens, closes, semicolon, comma, dash, slash, single, double, back,
    name]

theorem seekKeyword_blanks {gap : List Char} (blank : ∀ c ∈ gap, isBlank c = true) :
    seekKeyword keywords 0 depth (gap ++ rest) = seekKeyword keywords 0 depth rest := by
  induction gap with
  | nil => rfl
  | cons c gap ih =>
    have first := blank c List.mem_cons_self
    have apart : c ∉ ['(', ')', ';', ',', '-', '/', '\'', '"', '\x60'] := by
      intro mem
      have solid : ∀ x ∈ ['(', ')', ';', ',', '-', '/', '\'', '"', '\x60'], isBlank x = false := by
        decide
      rw [solid c mem] at first
      cases first
    have name := startsName_of_isNameChar (isNameChar_of_isBlank first)
    rw [List.cons_append, seekKeyword_other name apart,
      ih (fun x mem => blank x (List.mem_cons_of_mem c mem))]

theorem seekKeyword_word (spelled : Spelled cs text) (ends : EndsWord rest)
    (cased : ∀ k ∈ keywords, Cased k) :
    seekKeyword keywords 0 depth (cs ++ rest) =
      if depth = 0 ∧ text ∈ keywords then some text else seekKeyword keywords 0 depth rest := by
  obtain ⟨c, word, rfl, inside, -, begins⟩ := spelled.starts (.start default)
  obtain ⟨-, -, -, others, known, -⟩ := identifier_facts inside
  have whole : (word ++ rest).takeWhile isNameChar = word := by
    refine takeWhile_append ?_ ?_
    · exact fun x mem => (identifier_facts (spelled.inside x (List.mem_cons_of_mem c mem))).2.2.1
    · exact fun x head => (endsWord_char (ends x head) (.start default)).2
  simp only [otherMarks, signs, List.mem_cons, List.not_mem_nil, or_false, not_or] at others known
  obtain ⟨single, double, back, -, dash, slash, -⟩ := others
  obtain ⟨semicolon, -, -, -, opens, closes, comma⟩ := known
  have here := find?_keyword spelled cased
  have skips : seekKeyword keywords word.length depth (word ++ rest) =
      seekKeyword keywords 0 depth rest := seekKeyword_skip
  by_cases met : depth = 0 ∧ text ∈ keywords
  · simp [seekKeyword, isQuote, opens, closes, semicolon, comma, dash, slash, single, double, back,
      begins, here, whole, met]
  · rw [if_neg met, ← skips]
    by_cases outside : depth = 0
    · have other : text ∉ keywords := fun mem => met ⟨outside, mem⟩
      simp [seekKeyword, isQuote, opens, closes, semicolon, comma, dash, slash, single, double,
        back, begins, here, whole, outside, other]
    · simp [seekKeyword, isQuote, opens, closes, dash, slash, single, double, back, begins, whole,
        outside]

end

/-- In a text with these tokens ahead, the search inside `depth` parentheses comes to `r`. -/
def Seeks (after : List Char) (keywords : List String) (depth : Nat) (ts : List Piece)
    (r : Option String) : Prop :=
  ∀ gap rest, (∀ c ∈ gap, isBlank c = true) → Laid after ts rest →
    seekKeyword keywords 0 depth (gap ++ rest) = r

namespace Seeks

variable {after : List Char} {keywords : List String} {depth : Nat} {ts : List Piece}
variable {text : String} {c : Char} {r : Option String}

theorem word (ends : EndsWord after) (cased : ∀ k ∈ keywords, Cased k)
    (other : depth ≠ 0 ∨ text ∉ keywords) (h : Seeks after keywords depth ts r) :
    Seeks after keywords depth (.word text :: ts) r := by
  rintro gap _ blank (_ | ⟨spelled, blank', apart, later⟩)
  have no : ¬ (depth = 0 ∧ text ∈ keywords) := by
    rintro ⟨outside, mem⟩
    rcases other with inside | unlisted
    · exact inside outside
    · exact unlisted mem
  rw [seekKeyword_blanks blank, seekKeyword_word spelled (later.endsWord ends blank' apart) cased,
    if_neg no]
  exact h _ _ blank' later

theorem found (ends : EndsWord after) (cased : ∀ k ∈ keywords, Cased k) (mem : text ∈ keywords) :
    Seeks after keywords 0 (.word text :: ts) (some text) := by
  rintro gap _ blank (_ | ⟨spelled, blank', apart, later⟩)
  rw [seekKeyword_blanks blank, seekKeyword_word spelled (later.endsWord ends blank' apart) cased,
    if_pos ⟨rfl, mem⟩]

theorem sign (plain : c ∈ [':', '=', '>']) (h : Seeks after keywords depth ts r) :
    Seeks after keywords depth (.sign c :: ts) r := by
  rintro gap _ blank (_ | _ | ⟨known, blank', later⟩)
  have apart : ∀ c ∈ [':', '=', '>'], c ∉ ['(', ')', ';', ',', '-', '/', '\'', '"', '\x60'] := by
    decide
  have name := (endsWord_char (Or.inr known) (Context.start default)).2
  rw [seekKeyword_blanks blank, seekKeyword_other (startsName_of_isNameChar name) (apart c plain)]
  exact h _ _ blank' later

theorem opens (h : Seeks after keywords (depth + 1) ts r) :
    Seeks after keywords depth (.sign '(' :: ts) r := by
  rintro gap _ blank (_ | _ | ⟨known, blank', later⟩)
  rw [seekKeyword_blanks blank]
  simpa [seekKeyword] using h _ _ blank' later

theorem closes (h : Seeks after keywords depth ts r) :
    Seeks after keywords (depth + 1) (.sign ')' :: ts) r := by
  rintro gap _ blank (_ | _ | ⟨known, blank', later⟩)
  rw [seekKeyword_blanks blank]
  simpa [seekKeyword] using h _ _ blank' later

/-- A comma inside parentheses ends nothing. -/
theorem comma (h : Seeks after keywords (depth + 1) ts r) :
    Seeks after keywords (depth + 1) (.sign ',' :: ts) r := by
  rintro gap _ blank (_ | _ | ⟨known, blank', later⟩)
  have name := (endsWord_char (Or.inr known) (Context.start default)).2
  rw [seekKeyword_blanks blank]
  simpa [seekKeyword, isQuote, startsName_of_isNameChar name] using h _ _ blank' later

theorem stop : Seeks after keywords 0 (.sign ';' :: ts) none := by
  rintro gap _ blank (_ | _ | ⟨known, blank', later⟩)
  rw [seekKeyword_blanks blank]
  simp [seekKeyword]

end Seeks

end SqlBoundary
