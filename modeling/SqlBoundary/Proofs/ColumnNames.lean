import SqlBoundary.Proofs.Joined
import SqlBoundary.Proofs.OneLine

/-!
# Columns and variables named like a keyword

A query for one column of a table, and in MySQL the assignment to one variable, whatever the name
is. It is read to its end as one statement, unless the name is a word that has an effect on the
blocks wherever it stands: an `END` has no block to close there, and any other opens one that the
script does not close.
-/

namespace SqlBoundary

open Text Lexeme

/-- The words that open or close a block outside of any other, also as a part of a name. -/
def BlockGrammar.effective : BlockGrammar → List String
  | common => ["BEGIN", "CASE", "END"]
  | mysql => ["BEGIN", "CASE", "END"]
  | oracle => ["BEGIN", "CASE", "END", "LOOP"]

/-- Outside blocks, and behind a word that does not bear on it, these are all. -/
theorem BlockGrammar.opens_iff_effective {grammar : BlockGrammar} {w : Word} {ctx : Context}
    (outside : ctx.blocks = []) (other : w.text ≠ "END")
    (previous : w.previous ∉ [some "END", some "COMPOUND"])
    (next : ∃ next ∈ w.next, next ∉ transactionWords)
    (leading : declaresMembers w.leading = false) :
    grammar.opens w ctx = true ↔ w.text ∈ grammar.effective := by
  have innermost : ctx.innermost ∉ declarationBlocks := by
    rw [Context.innermost, outside]
    decide
  simp only [List.mem_cons, List.not_mem_nil, or_false, not_or] at previous
  rw [opens_iff_anywhere (Or.inr (Or.inl outside))]
  constructor
  · intro anywhere
    cases anywhere with
    | begin text => cases grammar <;> simp [effective, text]
    | case text => cases grammar <;> simp [effective, text]
    | loop oracle text => simp [effective, oracle, text]
    | members _ _ _ named => simp [leading] at named
    | member _ _ inside => exact absurd inside innermost
    | compound _ _ named => exact absurd named previous.2
  · intro listed
    have cases_ : w.text = "BEGIN" ∨ w.text = "CASE" ∨ grammar = .oracle ∧ w.text = "LOOP" := by
      cases grammar <;> simp_all [effective]
    rcases cases_ with text | text | ⟨oracle, text⟩
    · exact .begin text next
    · exact .case text previous.1
    · exact .loop oracle text previous.1

/-- The query for a column. -/
def columnQuery (name : String) : String := "SELECT t." ++ name ++ " FROM t;"

/-- The assignment to a user variable. -/
def variableSetting (name : String) : String := "SET @" ++ name ++ " = 1;"

/-- What comes behind the column's name. -/
def columnTail : List Char := ' ' :: ("FROM".toList ++ ' ' :: ("t".toList ++ [';']))

/-- A name that is written without quotes: of characters that words may have, digits in front
included. A dollar cannot be the first of the others where it begins a quoted text. -/
structure Vendor.Names (v : Vendor) (name : List Char) : Prop where
  inside : ∀ c ∈ name, v.dialect.isWordChar c = true
  nonempty : name ≠ []
  dollar : v = .postgres → (name.dropWhile (·.isDigit)).head? ≠ some '$'

instance (v : Vendor) (name : List Char) : Decidable (v.Names name) :=
  decidable_of_iff ((∀ c ∈ name, v.dialect.isWordChar c = true) ∧ name ≠ [] ∧
      (v = .postgres → (name.dropWhile (·.isDigit)).head? ≠ some '$'))
    ⟨fun ⟨inside, nonempty, dollar⟩ => ⟨inside, nonempty, dollar⟩,
      fun h => ⟨h.inside, h.nonempty, h.dollar⟩⟩

namespace Vendor.Names

variable {v : Vendor} {name : List Char}

theorem oneLine (names : v.Names name) : '\n' ∉ name := by
  intro mem
  exact absurd (Dialect.isBlank_of_isWordChar (names.inside _ mem)) (by decide)

theorem unquoted (names : v.Names name) (rest : List Char) : (name ++ rest).head? ≠ some '\'' := by
  obtain ⟨c, more, rfl⟩ := List.exists_cons_of_ne_nil names.nonempty
  rintro ⟨⟩
  exact unmarked_of_vendorWord (names.inside _ List.mem_cons_self) (by decide)

/-- The digits in front, and a word or nothing. -/
theorem cut (names : v.Names name) : ∃ ds w, (∀ c ∈ ds, c.isDigit = true) ∧ name = ds ++ w ∧
    name.dropWhile (·.isDigit) = w ∧ (w = [] ∨ v.Identifies w) := by
  refine ⟨name.takeWhile (·.isDigit), _, fun c => List.mem_takeWhile_imp,
    List.takeWhile_append_dropWhile.symm, rfl, ?_⟩
  cases word : name.dropWhile (·.isDigit) with
  | nil => exact Or.inl rfl
  | cons c more =>
    have inside : ∀ x ∈ c :: more, v.dialect.isWordChar x = true := by
      intro x mem
      rw [← word] at mem
      exact names.inside x ((List.dropWhile_suffix _).subset mem)
    have other : c.isDigit = false := by
      have first := List.head?_dropWhile_not (·.isDigit) name
      rw [word] at first
      exact first
    refine Or.inr ⟨?_, inside, List.cons_ne_nil _ _⟩
    rintro x ⟨⟩
    have letter := inside c List.mem_cons_self
    rw [Dialect.isWordChar, other, Bool.or_false] at letter
    refine ⟨letter, fun same dollar => names.dollar same ?_⟩
    rw [word, dollar]
    rfl

end Vendor.Names

namespace Session

variable {s t : Session} {draft : Option Draft} {d : Draft} {v : Vendor} {script : String}
variable {words : List String} {w rest : List Char}

/-- These words and this text leave the word between them its usual effect. -/
structure Neutral (v : Vendor) (words : List String) (rest : List Char) : Prop where
  few : words.length < Draft.leadingWords
  last : words.getLast? ∉ [some "END", some "COMPOUND"]
  members : BlockGrammar.declaresMembers words = false
  ends : ∀ c ∈ rest.head?, c ∈ wordEnds
  next : ∃ next ∈ ({ Context.start default with kind := v.dialect.kind } : Context).tokenAhead?
    rest, next ∉ BlockGrammar.transactionWords

theorem Neutral.opens_iff (neutral : Neutral v words rest)
    (h : Amid v script words [] (w ++ rest) s d) (other : String.ofList (upper w) ≠ "END") :
    v.dialect.blocks.opens (Amid.asked s d w rest) s.context = true ↔
      String.ofList (upper w) ∈ v.dialect.blocks.effective := by
  let ctx : Context := { Context.start default with kind := v.dialect.kind }
  have previous : (Amid.asked s d w rest).previous = words.getLast? := h.previous
  have next : (Amid.asked s d w rest).next = ctx.tokenAhead? rest := tokenAhead?_kind h.kind rest
  have leading : (Amid.asked s d w rest).leading = words := h.leading
  refine BlockGrammar.opens_iff_effective h.blocks other ?_ ?_ ?_
  · rw [previous]
    exact neutral.last
  · rw [next]
    exact neutral.next
  · rw [leading]
    exact neutral.members

/-- There is no block that an `END` could close. -/
theorem Amid.failed_end (h : Amid v script words [] (w ++ rest) s d) (identifies : v.Identifies w)
    (ends : ∀ c ∈ rest.head?, c ∈ wordEnds) (ending : String.ofList (upper w) = "END") :
    ∃ t fault, s.pass (some d) = .failed t fault := by
  have pass := pass_name h.dialect h.delimiter h.off identifies h.ahead ends
    (show s.begin (some d) = .ok (s, d) from rfl) h.kind (Or.inl (h.leading ▸ h.query.nonempty))
  have begun : d.leading.isEmpty = false := by simpa [h.leading] using h.query.nonempty
  have outside : (s.skip w.length).context.blocks = [] := h.blocks
  rw [ending, takeWord, beq_self_eq_true, if_pos rfl, closeBlock_nil outside, begun,
    Bool.false_and, if_neg Bool.false_ne_true] at pass
  exact ⟨_, _, pass⟩

theorem split_of_failed {u : Session} {fault : Fault}
    (passes : Passes (.ofScript v.dialect v.dialect.defaultDelimiter script) none t draft)
    (failed : t.pass draft = .failed u fault) : split v.dialect script = .error fault := by
  rw [split, splitFrom, ← onward_none rfl, onward_of_passes (classified_none _) passes,
    onward_of_failed failed]

/-- A script that is read to its last semicolon outside blocks is one statement. -/
theorem split_of_closed
    (passes : Passes (.ofScript v.dialect v.dialect.defaultDelimiter script) none t (some d))
    (h : Amid v script words [] [';'] t d) :
    ∃ statement, split v.dialect script = .ok [statement] := by
  obtain ⟨u, e, statement, w, last, start, found, ended⟩ := found_semicolon h
  have whole := passes_trans passes last
  obtain ⟨piece, cut, -⟩ := passes_cut whole
  obtain ⟨answer, -⟩ := splitFrom_of_single whole start cut found (by simp [ended])
  exact ⟨_, answer⟩

/-- A statement with a word in it is split as one, unless the word has an effect on the blocks. -/
theorem split_word (identifies : v.Identifies w) (neutral : Neutral v words rest)
    (before : ∃ u x, Passes (.ofScript v.dialect v.dialect.defaultDelimiter script) none u
      (some x) ∧ Amid v script words [] (w ++ rest) u x)
    (after : ∀ text blocks, ∃ words', Advances v script (words ++ [text]) blocks rest words' blocks
      [';']) :
    (∃ statement, split v.dialect script = .ok [statement]) ↔
      String.ofList (upper w) ∉ v.dialect.blocks.effective := by
  obtain ⟨u, x, passes, amid⟩ := before
  have faulty {fault : Fault} (answer : split v.dialect script = .error fault) :
      ¬ ∃ statement, split v.dialect script = .ok [statement] := by
    rw [answer]
    exact nofun
  by_cases ending : String.ofList (upper w) = "END"
  · have listed : "END" ∈ v.dialect.blocks.effective := by cases v <;> decide
    obtain ⟨t, fault, failed⟩ := amid.failed_end identifies neutral.ends ending
    exact iff_of_false (faulty (split_of_failed passes failed)) (not_not.mpr (ending ▸ listed))
  obtain ⟨t, e, step, taken⟩ := amid.word neutral.few identifies neutral.ends rfl ending
  obtain ⟨words', goes⟩ := after (String.ofList (upper w))
    (if v.dialect.blocks.opens (Amid.asked u x w rest) u.context
      then [String.ofList (upper w)] else [])
  obtain ⟨t', e', onward, left⟩ := goes t e taken
  have reaches := passes_trans passes (.step step onward)
  rw [← neutral.opens_iff amid ending]
  by_cases opened : v.dialect.blocks.opens (Amid.asked u x w rest) u.context = true
  · rw [if_pos opened] at left
    obtain ⟨_, _, _, fault, last, failed⟩ := failed_semicolon left (List.cons_ne_nil _ _)
    have answer := split_of_failed (passes_trans reaches last) failed
    exact iff_of_false (faulty answer) (not_not.mpr opened)
  · rw [if_neg opened] at left
    exact iff_of_true (split_of_closed reaches left) opened

/-- Of a name with digits in front, only what comes behind these is read as a word. -/
theorem split_named {name : String} (names : v.Names name.toList) (neutral : Neutral v words rest)
    (before : ∃ u x, Passes (.ofScript v.dialect v.dialect.defaultDelimiter script) none u
      (some x) ∧ Amid v script words [] (name.toList ++ rest) u x)
    (after : ∀ more blocks, more.length ≤ 1 → ∃ words', Advances v script (words ++ more) blocks
      rest words' blocks [';']) :
    (∃ statement, split v.dialect script = .ok [statement]) ↔
      String.ofList (upper (name.toList.dropWhile (·.isDigit))) ∉ v.dialect.blocks.effective := by
  obtain ⟨u, x, passes, amid⟩ := before
  obtain ⟨ds, w, digits, split, dropped, identifies⟩ := names.cut
  rw [split, List.append_assoc] at amid
  have unquoted : (w ++ rest).head? ≠ some '\'' := by
    rcases identifies with rfl | identifies
    · intro head
      exact absurd (neutral.ends _ head) (by decide)
    · exact identifies.unquoted rest
  obtain ⟨t, e, onward, here⟩ := Advances.digits digits unquoted (.refl _ _ _ _ _) u x amid
  have reaches := passes_trans passes onward
  rw [dropped]
  rcases identifies with rfl | identifies
  · have unlisted : String.ofList (upper []) ∉ v.dialect.blocks.effective := by cases v <;> decide
    obtain ⟨words', goes⟩ := after [] [] (Nat.zero_le 1)
    rw [List.append_nil] at goes
    obtain ⟨t', e', last, left⟩ := goes t e here
    exact iff_of_true (split_of_closed (passes_trans reaches last) left) unlisted
  · exact split_word identifies neutral ⟨t, e, reaches, here⟩
      fun text blocks => after [text] blocks (Nat.le_refl 1)

theorem split_columnQuery (v : Vendor) (name : String) (names : v.Names name.toList) :
    (∃ statement, split v.dialect (columnQuery name) = .ok [statement]) ↔
      String.ofList (upper (name.toList.dropWhile (·.isDigit))) ∉ v.dialect.blocks.effective := by
  have text : (columnQuery name).toList =
      "SELECT".toList ++ ' ' :: ("t".toList ++ '.' :: (name.toList ++ columnTail)) := by
    have front : "SELECT t.".toList = "SELECT".toList ++ ' ' :: ("t".toList ++ ['.']) := by decide
    have back : " FROM t;".toList = columnTail := by decide
    rw [columnQuery, String.toList_append, String.toList_append, front, back]
    simp only [List.append_assoc, List.cons_append, List.nil_append]
  have oneLine : '\n' ∉ ' ' :: ("t".toList ++ '.' :: (name.toList ++ columnTail)) := by
    simp [columnTail, names.oneLine]
  have dot : v.Clear '.' ∧ v.dialect.startsWord '.' = false := by cases v <;> decide +kernel
  have neutral : Neutral v ["SELECT", "T"] columnTail :=
    ⟨by decide, by decide, by decide, by decide, by cases v <;> decide +kernel⟩
  obtain ⟨u, x, passes, amid⟩ := amid_first (v := v) "SELECT" (by decide) text
    (by rintro c ⟨⟩; decide) oneLine
  obtain ⟨t, e, passes', amid'⟩ : ∃ t e, Passes u (some x) t (some e) ∧
      Amid v (columnQuery name) ["SELECT", "T"] [] (name.toList ++ columnTail) t e :=
    Advances.space (.frame "t" "T" (by decide) (by decide) (by rintro c ⟨⟩; decide) (by decide) <|
      .sign dot.1 dot.2 (by decide) (names.unquoted _) (Or.inl (by decide))
        (.refl _ _ _ _ _)) u x amid
  refine split_named names neutral ⟨t, e, passes_trans passes passes', amid'⟩
    fun more blocks short => ⟨["SELECT", "T"] ++ more ++ ["FROM"] ++ ["T"], ?_⟩
  have few : (["SELECT", "T"] ++ more ++ ["FROM"]).length < Draft.leadingWords := by
    have eight : Draft.leadingWords = 8 := rfl
    simp only [List.length_append, List.length_cons, List.length_nil]
    omega
  have fewer : (["SELECT", "T"] ++ more).length < Draft.leadingWords := by
    rw [List.length_append] at few
    omega
  exact .space <| .frame "FROM" "FROM" (by decide) fewer (by rintro c ⟨⟩; decide) (by decide) <|
    .space <| .frame "t" "T" (by decide) few (by rintro c ⟨⟩; decide) (by decide)
    (.refl _ _ _ _ _)

theorem split_variableSetting (name : String) (names : Vendor.mysql.Names name.toList) :
    (∃ statement, split .mysql (variableSetting name) = .ok [statement]) ↔
      String.ofList (upper (name.toList.dropWhile (·.isDigit))) ∉
        Dialect.mysql.blocks.effective := by
  have text : (variableSetting name).toList =
      "SET".toList ++ ' ' :: '@' :: (name.toList ++ " = 1;".toList) := by
    have front : "SET @".toList = "SET".toList ++ [' ', '@'] := by decide
    rw [variableSetting, String.toList_append, String.toList_append, front]
    simp only [List.append_assoc, List.cons_append, List.nil_append]
  have oneLine : '\n' ∉ ' ' :: '@' :: (name.toList ++ " = 1;".toList) := by
    simp [names.oneLine]
  have neutral : Neutral .mysql ["SET"] " = 1;".toList :=
    ⟨by decide, by decide, by decide, by decide, by decide +kernel⟩
  obtain ⟨u, x, passes, amid⟩ := amid_first (v := .mysql) "SET" (by decide) text
    (by rintro c ⟨⟩; decide) oneLine
  obtain ⟨t, e, passes', amid'⟩ : ∃ t e, Passes u (some x) t (some e) ∧
      Amid .mysql (variableSetting name) ["SET"] [] (name.toList ++ " = 1;".toList) t e :=
    Advances.space (.sign (by decide) (by decide +kernel) (by decide) (names.unquoted _)
      (Or.inl (by decide)) (.refl _ _ _ _ _)) u x amid
  refine split_named (v := .mysql) names neutral ⟨t, e, passes_trans passes passes', amid'⟩
    fun more blocks _ => ⟨["SET"] ++ more, ?_⟩
  change Advances .mysql _ _ _ [' ', '=', ' ', '1', ';'] _ _ _
  exact .space <| .sign (by decide) (by decide +kernel) (by decide) nofun (Or.inl (by decide)) <|
    .space <| .sign (by decide) (by decide +kernel) (by decide) nofun (Or.inl (by decide))
    (.refl _ _ _ _ _)

end Session

/-- The words that have an effect as a part of a name, wherever it stands, and what follows for two
statements with a name in them. -/
theorem effect_of_joined (v : Vendor) :
    (∀ (delimiter : Delimiter) (script : String) (s : Session) (draft : Option Draft)
        (items : List Item) (u : Session) (d : Draft),
      Session.Reached v.dialect delimiter script s draft items → s.Scans draft u d →
      s.Joined v script →
      (s.MovesBlocks draft ↔
        u.wordText = "END" ∧
            (u.context.blocks ≠ [] ∨ words items ≠ [] ∨ v.dialect.standaloneEnd = false) ∨
          v.dialect.blocks.OpensAnywhere (u.wordAmong items) u.context)) ∧
    (∀ name : String, v.Names name.toList →
      ((∃ statement, split v.dialect (columnQuery name) = .ok [statement]) ↔
        String.ofList (upper (name.toList.dropWhile (·.isDigit))) ∉
          v.dialect.blocks.effective)) ∧
    (v = .mysql → ∀ name : String, v.Names name.toList →
      ((∃ statement, split v.dialect (variableSetting name) = .ok [statement]) ↔
        String.ofList (upper (name.toList.dropWhile (·.isDigit))) ∉
          v.dialect.blocks.effective)) := by
  refine ⟨?_, ?_, ?_⟩
  · intro delimiter script s draft items u d reached scans joined
    exact Session.movesBlocks_of_joined reached scans joined
  · exact Session.split_columnQuery v
  · rintro rfl
    exact Session.split_variableSetting

/-- In MySQL a `LOOP` is a column or a variable like any other. -/
theorem effect_of_joined_loop :
    (∃ s draft items u d,
      Session.Reached Dialect.mysql .semicolon (columnQuery "loop") s draft items ∧
        s.Scans draft u d ∧ s.Joined .mysql (columnQuery "loop") ∧ u.wordText = "LOOP" ∧
        ¬ s.MovesBlocks draft) ∧
      (∃ statement, split .mysql (columnQuery "loop") = .ok [statement]) ∧
      ∃ statement, split .mysql (variableSetting "loop") = .ok [statement] := by
  obtain ⟨effect, column, variable_⟩ := effect_of_joined .mysql
  have name : Vendor.mysql.Names "loop".toList := by decide +kernel
  have unlisted : String.ofList (upper ("loop".toList.dropWhile (·.isDigit))) ∉
      Vendor.mysql.dialect.blocks.effective := by decide
  let r := Session.follow 4 (.ofScript .mysql .semicolon (columnQuery "loop")) none []
  let u := r.1
  let d := (r.2.1).getD (.begin u.cursor)
  have reached : Session.Reached Dialect.mysql .semicolon (columnQuery "loop") r.1 r.2.1 r.2.2 :=
    Session.reached_follow 4 .start
  have scans : r.1.Scans r.2.1 u d := ⟨by decide +kernel, by decide +kernel⟩
  have word : u.wordText = "LOOP" := by decide +kernel
  have joined : r.1.Joined .mysql (columnQuery "loop") :=
    ⟨"SELECT t".toList, '.', by decide +kernel, Or.inl rfl⟩
  refine ⟨⟨r.1, r.2.1, r.2.2, u, d, reached, scans, joined, word, ?_⟩, ?_, ?_⟩
  · rw [effect _ _ _ _ _ _ _ reached scans joined, word]
    rintro (⟨ending, -⟩ | anywhere)
    · exact absurd ending (by decide)
    · cases anywhere with
      | begin text => exact absurd (word.symm.trans text) (by decide)
      | case text => exact absurd (word.symm.trans text) (by decide)
      | loop oracle => cases oracle
      | members oracle => cases oracle
      | member oracle => cases oracle
      | compound oracle => cases oracle
  · exact (column "loop" name).mpr unlisted
  · exact (variable_ rfl "loop" name).mpr unlisted

/-- But an `END` closes a block there too, and here none is open. -/
theorem split_column_end :
    split .generic "SELECT t.end FROM t;" = .error (.atLine 1 .blockUnderflow) ∧
      split .mysql "SET @end = 1;" = .error (.atLine 1 .blockUnderflow) := by
  decide +kernel

end SqlBoundary
