import SqlBoundary.Proofs.Lookahead

/-!
# What a search for a keyword looks at

Inside parentheses no word is a keyword, so that of a group only its parentheses, its quoted
texts and its comments make a difference to the search. Outside, the search passes over all that
is neither a keyword nor the end of the expression, and what it finds behind such a text is what
it would find without it.
-/

namespace SqlBoundary

open Text Lexeme

variable {keywords : List String} {depth : Nat} {c : Char} {rest : List Char}

/-- Characters that make a difference to the search inside parentheses. -/
def searchMarks : List Char := ['(', ')', '\'', '"', '\x60', '-', '/']

theorem seekKeyword_unmarked (plain : c ∉ searchMarks) :
    seekKeyword keywords 0 (depth + 1) (c :: rest) = if startsName c then
      seekKeyword keywords 0 (depth + 1) (rest.dropWhile isNameChar)
      else seekKeyword keywords 0 (depth + 1) rest := by
  simp only [searchMarks, List.mem_cons, List.not_mem_nil, or_false, not_or] at plain
  obtain ⟨left, right, single, double, back, dash, slash⟩ := plain
  have quiet : opensText c rest.head? = false := by
    simp [opensText, isQuote, single, double, back, dash, slash]
  rw [seekKeyword_plain keywords (depth + 1) quiet, if_neg left, if_neg right, if_neg (by omega)]
  simp

/-- Inside parentheses a name is no keyword, so that it is passed like any other characters. -/
theorem seekKeyword_dropName (cs : List Char) :
    seekKeyword keywords 0 (depth + 1) (cs.dropWhile isNameChar) =
      seekKeyword keywords 0 (depth + 1) cs := by
  induction cs with
  | nil => rfl
  | cons c cs ih =>
    by_cases name : isNameChar c = true
    · have plain : c ∉ searchMarks := by
        intro mem
        have apart : ∀ x ∈ searchMarks, isNameChar x = false := by decide +kernel
        rw [apart c mem] at name
        cases name
      rw [List.dropWhile_cons_of_pos name, seekKeyword_unmarked plain, ih]
      exact (ite_self _).symm
    · rw [List.dropWhile_cons_of_neg name]

theorem seekKeyword_inside {inner : List Char} (plain : ∀ c ∈ inner, c ∉ searchMarks) :
    seekKeyword keywords 0 (depth + 1) (inner ++ rest) =
      seekKeyword keywords 0 (depth + 1) rest := by
  induction inner with
  | nil => rfl
  | cons c inner ih =>
    rw [List.cons_append, seekKeyword_unmarked (plain c List.mem_cons_self), seekKeyword_dropName,
      ite_self]
    exact ih fun x mem => plain x (List.mem_cons_of_mem c mem)

/-- A comment or a quoted text as the search takes it, in every dialect alike: a line comment has
its line feed with it, and a backslash always escapes. -/
inductive LooseText : List Char → Prop
  | line {text : List Char} (oneLine : '\n' ∉ text) : LooseText ('-' :: '-' :: (text ++ ['\n']))
  | block {text : List Char} (first : ¬ ['*', '/'] <:+: text) :
      LooseText ('/' :: '*' :: (text ++ ['*', '/']))
  | quoted {mark : Char} {text : List Char} (quote : isQuote mark = true)
      (body : Body mark true text) : LooseText (mark :: text)

/-- What may stand between two parentheses: comments, quoted texts, groups and any characters
that make no difference there. -/
inductive Enclosed : List Char → Prop
  | nil : Enclosed []
  | plain {c : Char} {rest : List Char} (plain : c ∉ searchMarks) (later : Enclosed rest) :
      Enclosed (c :: rest)
  | text {text rest : List Char} (loose : LooseText text) (later : Enclosed rest) :
      Enclosed (text ++ rest)
  | group {inner rest : List Char} (inside : Enclosed inner) (later : Enclosed rest) :
      Enclosed ('(' :: (inner ++ ')' :: rest))

/-- Characters that the search takes note of outside parentheses, besides letters. -/
def expressionMarks : List Char := '_' :: ';' :: ',' :: searchMarks

/-- A word, from its first character to its last. -/
structure IsName (name : List Char) : Prop where
  first : ∃ c rest, name = c :: rest ∧ startsName c = true
  inside : ∀ c ∈ name, isNameChar c = true

/-- In front of `after` the text is passed over: it consists of comments, quoted texts, groups,
words that are not sought and characters of no note. A blank behind each of these words, which
may be the first character of `after`, keeps it apart from what follows. -/
inductive Overlooked (keywords : List String) (after : List Char) : List Char → Prop
  | nil : Overlooked keywords after []
  | plain {c : Char} {rest : List Char} (letter : isAlphabetic c = false)
      (plain : c ∉ expressionMarks) (later : Overlooked keywords after rest) :
      Overlooked keywords after (c :: rest)
  | word {name rest : List Char} (isName : IsName name)
      (unsought : ∀ k ∈ keywords, sameIgnoringCase name k.toList = false)
      (apart : ∃ c ∈ (rest ++ after).head?, isBlank c = true)
      (later : Overlooked keywords after rest) : Overlooked keywords after (name ++ rest)
  | text {text rest : List Char} (loose : LooseText text)
      (later : Overlooked keywords after rest) : Overlooked keywords after (text ++ rest)
  | group {inner rest : List Char} (inside : Enclosed inner)
      (later : Overlooked keywords after rest) :
      Overlooked keywords after ('(' :: (inner ++ ')' :: rest))

theorem LooseText.blind {text : List Char} (loose : LooseText text) (after : List Char) :
    Blind text after := by
  intro keywords depth
  cases loose with
  | @line text oneLine =>
    have feed : LineEnds ('\n' :: after) := Or.inr ⟨after, rfl⟩
    have passed := blind_lineComment oneLine feed keywords depth
    have one : seekKeyword keywords 0 depth ('\n' :: after) = seekKeyword keywords 0 depth after :=
      seekKeyword_other (by decide) (by decide)
    simpa using passed.trans one
  | block first => exact blind_blockComment first keywords depth
  | quoted quote body => exact body.blind quote keywords depth

/-- A group is passed if what stands in it is passed inside parentheses. -/
theorem blind_group {inner : List Char} (after : List Char)
    (inside : ∀ keywords depth after, seekKeyword keywords 0 (depth + 1) (inner ++ after) =
      seekKeyword keywords 0 (depth + 1) after) : Blind ('(' :: (inner ++ [')'])) after := by
  intro keywords depth
  have opens : seekKeyword keywords 0 depth ('(' :: (inner ++ ')' :: after)) =
      seekKeyword keywords 0 (depth + 1) (inner ++ ')' :: after) := by
    simp [seekKeyword]
  have closes : seekKeyword keywords 0 (depth + 1) (')' :: after) =
      seekKeyword keywords 0 depth after := by
    simp [seekKeyword]
  simpa using opens.trans ((inside keywords depth _).trans closes)

theorem Enclosed.passed {inner : List Char} (enclosed : Enclosed inner) (keywords : List String)
    (depth : Nat) (after : List Char) : seekKeyword keywords 0 (depth + 1) (inner ++ after) =
      seekKeyword keywords 0 (depth + 1) after := by
  induction enclosed generalizing keywords depth after with
  | nil => rfl
  | plain plain _ ih =>
    rw [List.cons_append, seekKeyword_unmarked plain, seekKeyword_dropName, ite_self]
    exact ih keywords depth after
  | @text text rest loose _ ih =>
    rw [List.append_assoc, loose.blind (rest ++ after) keywords (depth + 1)]
    exact ih keywords depth after
  | @group inner rest _ _ inner_ih rest_ih =>
    have group := blind_group (rest ++ after) inner_ih keywords (depth + 1)
    simpa using group.trans (rest_ih keywords depth after)

theorem unmarked_of_startsName (starts : startsName c = true) : c ∉ ';' :: ',' :: searchMarks := by
  intro mem
  have apart : ∀ x ∈ ';' :: ',' :: searchMarks, startsName x = false := by decide +kernel
  rw [apart c mem] at starts
  cases starts

/-- A word is compared with the keywords as a whole, and passed if it is none of them. -/
theorem seekKeyword_name {name : List Char} (isName : IsName name)
    (ends : ∀ c ∈ rest.head?, isNameChar c = false) : seekKeyword keywords 0 0 (name ++ rest) =
      (keywords.find? (sameIgnoringCase name ·.toList)).or (seekKeyword keywords 0 0 rest) := by
  obtain ⟨c, more, rfl, starts⟩ := isName.first
  have plain := unmarked_of_startsName starts
  simp only [searchMarks, List.mem_cons, List.not_mem_nil, or_false, not_or] at plain
  obtain ⟨semicolon, comma, left, right, single, double, back, dash, slash⟩ := plain
  have quiet : opensText c (more ++ rest).head? = false := by
    simp [opensText, isQuote, single, double, back, dash, slash]
  have inside : ∀ x ∈ more, isNameChar x = true :=
    fun x mem => isName.inside x (List.mem_cons_of_mem c mem)
  have whole : (more ++ rest).takeWhile isNameChar = more := takeWhile_append inside ends
  have behind : (more ++ rest).dropWhile isNameChar = rest := by
    rw [List.dropWhile_append_of_pos inside]
    cases rest with
    | nil => rfl
    | cons x rest => rw [List.dropWhile_cons_of_neg (by simp [ends x rfl])]
  rw [List.cons_append, seekKeyword_plain keywords 0 quiet, whole, behind]
  cases found : keywords.find? (sameIgnoringCase (c :: more) ·.toList) <;>
    simp [left, right, semicolon, comma, starts]

theorem Overlooked.passed {after text : List Char} (overlooked : Overlooked keywords after text) :
    seekKeyword keywords 0 0 (text ++ after) = seekKeyword keywords 0 0 after := by
  induction overlooked with
  | nil => rfl
  | @plain c rest letter plain _ ih =>
    simp only [expressionMarks, searchMarks, List.mem_cons, List.not_mem_nil, or_false, not_or]
      at plain
    have name : startsName c = false := by simp [startsName, letter, plain]
    have unnoted : c ∉ ['(', ')', ';', ',', '-', '/', '\'', '"', '\x60'] := by simp [plain]
    rw [List.cons_append, seekKeyword_other name unnoted, ih]
  | @word name rest isName unsought apart _ ih =>
    have ends : ∀ c ∈ (rest ++ after).head?, isNameChar c = false := by
      obtain ⟨x, head, blank⟩ := apart
      intro c mem
      cases Option.mem_unique mem head
      exact isNameChar_of_isBlank blank
    have none : keywords.find? (sameIgnoringCase name ·.toList) = none := by
      rw [List.find?_eq_none]
      intro k mem
      simp [unsought k mem]
    rw [List.append_assoc, seekKeyword_name isName ends, none, Option.none_or, ih]
  | @text text rest loose _ ih =>
    rw [List.append_assoc, loose.blind (rest ++ after) keywords 0]
    exact ih
  | @group inner rest inside _ ih =>
    have group := blind_group (rest ++ after) inside.passed keywords 0
    simpa using group.trans ih

/-- A text that is passed over has no part in what is found. Behind it, a word that is sought is
found, as the first one that it spells of those in the list; at the end of the expression nothing
is. -/
theorem keyword_behind_overlooked {after text : List Char}
    (overlooked : Overlooked keywords after text) :
    nextKeyword? (text ++ after) keywords = nextKeyword? after keywords ∧
    (∀ name rest, after = name ++ rest → IsName name →
      (∀ c ∈ rest.head?, isNameChar c = false) →
      ∀ before keyword later, keywords = before ++ keyword :: later →
        sameIgnoringCase name keyword.toList = true →
        (∀ k ∈ before, sameIgnoringCase name k.toList = false) →
        nextKeyword? after keywords = some keyword) ∧
    ((∀ c ∈ after.head?, c ∈ [';', ',', ')']) → nextKeyword? after keywords = none) := by
  refine ⟨overlooked.passed, ?_, ?_⟩
  · rintro name rest rfl isName ends before keyword later rfl same first
    have found : (before ++ keyword :: later).find? (sameIgnoringCase name ·.toList) =
        some keyword := by
      rw [List.find?_append, List.find?_eq_none.mpr fun k mem => by simp [first k mem],
        Option.none_or]
      exact List.find?_cons_of_pos same
    rw [nextKeyword?, seekKeyword_name isName ends, found, Option.some_or]
  · intro ended
    cases after with
    | nil => rfl
    | cons c rest =>
      have mark := ended c rfl
      simp only [List.mem_cons, List.not_mem_nil, or_false] at mark
      rcases mark with rfl | rfl | rfl <;> rfl

/-- The keyword in the comment is passed over with a word, a sign and a group around a quote. -/
theorem keyword_behind_overlooked_then :
    let keywords := ["THEN", "WHEN", "ELSE", "END"]
    Overlooked keywords "then 1".toList " x > (a, 'it\\'s') /* END */ ".toList ∧
      nextKeyword? " x > (a, 'it\\'s') /* END */ then 1".toList keywords = some "THEN" := by
  intro keywords
  have quoted : Body '\'' true "it\\'s'".toList :=
    .other (by decide) (by decide) <| .other (by decide) (by decide) <| .slash (Or.inl rfl) <|
      .other (by decide) (by decide) .last
  have inner : Enclosed "a, 'it\\'s'".toList :=
    .plain (by decide) <| .plain (by decide) <| .plain (by decide) <|
      .text (.quoted (by decide) quoted) .nil
  have comment : LooseText ('/' :: '*' :: (" END ".toList ++ ['*', '/'])) := .block (by decide)
  have named : IsName ['x'] := ⟨⟨'x', [], rfl, by decide +kernel⟩, by decide +kernel⟩
  have overlooked : Overlooked keywords "then 1".toList " x > (a, 'it\\'s') /* END */ ".toList :=
    .plain (by decide +kernel) (by decide) <|
    .word named (by decide) ⟨' ', rfl, by decide⟩ <|
    .plain (by decide +kernel) (by decide) <| .plain (by decide +kernel) (by decide) <|
    .plain (by decide +kernel) (by decide) <| .group inner <|
    .plain (by decide +kernel) (by decide) <| .text comment <|
    .plain (by decide +kernel) (by decide) .nil
  obtain ⟨passed, found, -⟩ := keyword_behind_overlooked overlooked
  have name : IsName "then".toList :=
    ⟨⟨'t', "hen".toList, rfl, by decide +kernel⟩, by decide +kernel⟩
  refine ⟨overlooked, passed.trans ?_⟩
  exact found "then".toList " 1".toList rfl name (by rintro c ⟨⟩; decide +kernel) [] "THEN"
    ["WHEN", "ELSE", "END"] rfl (by decide) nofun

end SqlBoundary
