import SqlBoundary.Proofs.EndTail

/-!
# Blocks without a BEGIN

A package and a type body declare their members in a block that `AS` or `IS` opens. Whether a
statement is the definition of one is told by the words it begins with, but only by whether
some are among them and not by where they stand: a column, a table or an alias with such a name
is enough for the next `AS` or `IS` to open a block. `opens_iff_members` says exactly when these
words open one, and so where the two rules part.
-/

namespace SqlBoundary

/-- The words among these tokens, in their order. -/
def words (items : List Item) : List String := items.filterMap Item.word?

/-- The words that the statement is classified by. -/
def firstWords (items : List Item) : List String := (words items).take Draft.leadingWords

/-- Among the words that the statement is classified by are those of a package or a type body. -/
def NamesMembers (items : List Item) : Prop :=
  "PACKAGE" ∈ firstWords items ∨ "TYPE" ∈ firstWords items ∧ "BODY" ∈ firstWords items

instance (items : List Item) : Decidable (NamesMembers items) :=
  inferInstanceAs (Decidable (_ ∨ _))

/-- What may stand between `CREATE` and the kind of what is created. -/
def modifierWords : List String := ["OR", "REPLACE", "EDITIONABLE", "NONEDITIONABLE"]

/-- Words that the definition of a package or of a type body begins with. -/
inductive Heading : List String → Prop
  | package {modifiers : List String} (plain : ∀ m ∈ modifiers, m ∈ modifierWords) :
      Heading ("CREATE" :: modifiers ++ ["PACKAGE"])
  | typeBody {modifiers : List String} (plain : ∀ m ∈ modifiers, m ∈ modifierWords) :
      Heading ("CREATE" :: modifiers ++ ["TYPE", "BODY"])

/-- The statement begins like the definition of a package or of a type body. -/
def DefinesMembers (items : List Item) : Prop :=
  ∃ heading after, Heading heading ∧ items = heading.map .word ++ after

theorem Heading.begins {heading : List String} (h : Heading heading) :
    heading.head? = some "CREATE" := by
  cases h <;> rfl

/-- The kind of what is created is among the words of the heading. -/
theorem Heading.kind {heading : List String} (h : Heading heading) :
    "PACKAGE" ∈ heading ∨ "TYPE" ∈ heading ∧ "BODY" ∈ heading := by
  cases h with
  | package => exact Or.inl (by simp)
  | typeBody => exact Or.inr ⟨by simp, by simp⟩

theorem not_definesMembers {items : List Item} (other : items.head? ≠ some (.word "CREATE")) :
    ¬ DefinesMembers items := by
  rintro ⟨heading, after, holds, rfl⟩
  obtain ⟨rest, rfl⟩ := List.head?_eq_some_iff.mp holds.begins
  exact other rfl

/-- A heading that the words a statement is classified by have room for is among them. -/
theorem namesMembers_of_heading {heading : List String} {after : List Item}
    (h : Heading heading) (short : heading.length ≤ Draft.leadingWords) :
    NamesMembers (heading.map .word ++ after) := by
  have text : words (heading.map .word ++ after) = heading ++ words after := by
    simp [words, List.filterMap_map, Function.comp_def, Item.word?]
  have among : ∀ word ∈ heading, word ∈ firstWords (heading.map .word ++ after) := by
    intro word mem
    rw [firstWords, text, List.take_append, List.take_of_length_le short]
    exact List.mem_append_left _ mem
  exact h.kind.imp (among _) fun both => ⟨among _ both.1, among _ both.2⟩

@[simp] theorem words_word (items : List Item) (text : String) :
    words (items ++ [.word text]) = words items ++ [text] := by
  simp [words, Item.word?]

@[simp] theorem words_symbol (items : List Item) (c : Char) :
    words (items ++ [.symbol c]) = words items := by
  simp [words, Item.word?]

@[simp] theorem words_quoted (items : List Item) : words (items ++ [.quoted]) = words items := by
  simp [words, Item.word?]

namespace Session

variable {s t u : Session} {draft : Option Draft} {d : Draft} {items : List Item}
variable {dialect : Dialect} {delimiter : Delimiter} {script : String}

/-- A draft remembers the words that the statement is classified by. -/
theorem tracks_leading : Tracks fun items d => d.leading = firstWords items where
  begin _ := rfl
  quoted told := by
    rw [firstWords, words_quoted]
    exact told
  symbol c _ told := by
    rw [firstWords, words_symbol]
    exact told
  word {items d} text told := by
    rw [Draft.afterWord, told, firstWords, firstWords, words_word, List.length_take]
    dsimp only
    by_cases few : (words items).length < Draft.leadingWords
    · rw [if_pos (by omega), List.take_of_length_le (Nat.le_of_lt few),
        List.take_of_length_le (by simp; omega)]
    · rw [if_neg (by omega), List.take_append_of_le_length (by omega)]

end Session

/-- Whether the word opens such a block goes by the blocks that are open and by these words. -/
theorem opens_members_iff {w : Word} {ctx : Context} (text : w.text = "AS" ∨ w.text = "IS") :
    BlockGrammar.oracle.opens w ctx = true ↔ ctx.blocks = [] ∧
      ("PACKAGE" ∈ w.leading ∨ "TYPE" ∈ w.leading ∧ "BODY" ∈ w.leading) := by
  rcases text with text | text <;>
    simp [BlockGrammar.opens, BlockGrammar.opensCommon, BlockGrammar.opensUnit,
      BlockGrammar.declaresMembers, Context.blockDepth, text]

variable {s u : Session} {draft : Option Draft} {d : Draft} {items : List Item}

/-- Wherever `AS` or `IS` is read, it opens a block if none is open and the words of a package or
of a type body are among the first eight of the statement. It does so in every definition of one.
To go by how the statement begins would be another rule where the words are among these eight
and the statement is not such a definition, and only there. -/
theorem opens_iff_members (delimiter : Delimiter) (script : String)
    (reached : Session.Reached .oracle delimiter script s draft items)
    (scans : s.Scans draft u d) (word : u.wordText = "AS" ∨ u.wordText = "IS") :
    (s.Opens draft u ↔ s.context.blocks = [] ∧ NamesMembers items) ∧
    (∀ heading after, Heading heading → heading.length ≤ Draft.leadingWords →
      items = heading.map .word ++ after → s.context.blocks = [] → s.Opens draft u) ∧
    ((s.Opens draft u → DefinesMembers items) ↔
      ¬ (s.context.blocks = [] ∧ NamesMembers items ∧ ¬ DefinesMembers items)) := by
  have leading : d.leading = firstWords items :=
    Session.tracks_leading.told_begin (Session.tracks_leading.told_of_reached reached) scans.begun
  obtain ⟨grammar, blocks⟩ : u.dialect.blocks = .oracle ∧ u.context.blocks = s.context.blocks := by
    have same := Session.dialect_of_reached reached
    obtain ⟨kind, rfl⟩ := Session.begin_ok scans.begun
    exact ⟨congrArg Dialect.blocks same, rfl⟩
  have plain : u.wordText ≠ "END" ∧ u.wordText ≠ "DELIMITER" := by
    rcases word with word | word <;> simp [word]
  have rule : s.Opens draft u ↔ s.context.blocks = [] ∧ NamesMembers items := by
    rw [scans.opens_iff plain.1 plain.2, grammar, opens_members_iff word, blocks, NamesMembers,
      ← leading]
    rfl
  refine ⟨rule, ?_, ?_⟩
  · rintro heading after holds short rfl closed
    exact rule.mpr ⟨closed, namesMembers_of_heading holds short⟩
  · rw [rule]
    constructor
    · rintro agree ⟨closed, named, other⟩
      exact other (agree ⟨closed, named⟩)
    · rintro agree ⟨closed, named⟩
      by_contra other
      exact agree ⟨closed, named, other⟩

/-- The alias of a column with such a name opens a block, though the statement creates nothing. -/
theorem opens_iff_members_alias :
    ∃ s draft items u d, Session.Reached Dialect.oracle .semicolon "SELECT package AS p"
        s draft items ∧
      s.Scans draft u d ∧ u.wordText = "AS" ∧ items.head? = some (.word "SELECT") ∧
      s.Opens draft u ∧ ¬ DefinesMembers items := by
  let r := Session.follow 4 (.ofScript .oracle .semicolon "SELECT package AS p") none []
  let u := r.1
  let d := (r.2.1).getD (.begin u.cursor)
  have reached : Session.Reached Dialect.oracle .semicolon "SELECT package AS p"
      r.1 r.2.1 r.2.2 := Session.reached_follow 4 .start
  have scans : r.1.Scans r.2.1 u d := ⟨by decide +kernel, by decide +kernel⟩
  have word : u.wordText = "AS" := by decide +kernel
  have first : r.2.2.head? = some (.word "SELECT") := by decide +kernel
  have named : NamesMembers r.2.2 := by decide +kernel
  have closed : r.1.context.blocks = [] := by decide +kernel
  have opens := (opens_iff_members .semicolon _ reached scans (Or.inl word)).1.mpr
    ⟨closed, named⟩
  exact ⟨r.1, r.2.1, r.2.2, u, d, reached, scans, word, first, opens,
    not_definesMembers (by rw [first]; decide)⟩

/-- So does the `IS` of a comment on such a column. The block is never closed, and takes the rest
of the script with it. -/
theorem splitFrom_comment_column :
    splitFrom .oracle .semicolon
        "COMMENT ON COLUMN orders.package IS 'Package number';\nSELECT 1 FROM dual;\n" =
      .error (.unclosedBlock "IS" 1) := by
  decide +kernel

end SqlBoundary
