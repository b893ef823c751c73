import Mathlib.Data.List.Basic
import SqlBoundary.Proofs.History

/-!
# Words after an END

`END IF` and its like end with a word that opens a block elsewhere. Such a word is told by
the last word before it in the statement, not by the last token: an `END` goes on to disarm
the next word of this kind even if commas, operators, literals or semicolons stand between.
`opens_iff_lastWord` says exactly when these words open a block, and so where the two rules
part.
-/

namespace SqlBoundary

open Lexeme

/-- The word opens a block in this context unless it belongs to an `END` before it. -/
inductive Opener (grammar : BlockGrammar) (w : Word) (ctx : Context) : Prop
  | case (text : w.text = "CASE")
  | loop (oracle : grammar = .oracle) (text : w.text = "LOOP")
  | branch (oracle : grammar = .oracle) (text : w.text = "IF") (inside : ctx.blocks ≠ [])
      (clause : w.clauseStart = true)
  | control (mysql : grammar = .mysql) (text : w.text ∈ ["LOOP", "WHILE", "REPEAT"])
      (inside : ctx.blocks ≠ []) (clause : w.clauseStart = true)
  | condition (mysql : grammar = .mysql) (text : w.text = "IF") (inside : ctx.blocks ≠ [])
      (clause : w.clauseStart = true)
      (reaches : nextKeyword? w.ahead ["THEN", "WHEN", "ELSE", "END"] = some "THEN")

theorem Opener.opens_eq {grammar : BlockGrammar} {w : Word} {ctx : Context}
    (h : Opener grammar w ctx) : grammar.opens w ctx = !w.followsEnd := by
  have depth : ctx.blocks ≠ [] → (ctx.blockDepth != 0) = true := by
    intro inside
    simp [Context.blockDepth, inside]
  cases h with
  | case text =>
    cases grammar <;>
      simp [BlockGrammar.opens, BlockGrammar.opensCommon, BlockGrammar.opensControlFlow,
        BlockGrammar.opensUnit, text]
  | loop oracle text =>
    simp [BlockGrammar.opens, BlockGrammar.opensCommon, BlockGrammar.opensUnit, oracle, text]
  | branch oracle text inside clause =>
    simp [BlockGrammar.opens, BlockGrammar.opensCommon, BlockGrammar.opensUnit, oracle, text,
      depth inside, clause]
  | control mysql text inside clause =>
    simp only [List.mem_cons, List.not_mem_nil, or_false] at text
    rcases text with text | text | text <;>
      simp [BlockGrammar.opens, BlockGrammar.opensCommon, BlockGrammar.opensControlFlow, mysql,
        text, depth inside, clause]
  | condition mysql text inside clause reaches =>
    simp [BlockGrammar.opens, BlockGrammar.opensCommon, BlockGrammar.opensControlFlow, mysql,
      text, depth inside, clause, reaches]

theorem Opener.plain {grammar : BlockGrammar} {w : Word} {ctx : Context}
    (h : Opener grammar w ctx) : w.text ≠ "END" ∧ w.text ≠ "DELIMITER" := by
  cases h with
  | case text => simp [text]
  | loop _ text => simp [text]
  | branch _ text => simp [text]
  | control _ text =>
    simp only [List.mem_cons, List.not_mem_nil, or_false] at text
    rcases text with text | text | text <;> simp [text]
  | condition _ text => simp [text]

namespace Session

variable {s t u : Session} {draft e : Option Draft} {d : Draft} {items : List Item}

/-- The word ahead as the grammar is asked about it. -/
def scanned (s : Session) (d : Draft) : Word :=
  s.afterWord.asWord d s.wordText (s.context.tokenAhead? s.afterWord.cursor.ahead)

/-- The next pass takes a word, which is added to the draft `d` in the session `u`. -/
structure Scans (s : Session) (draft : Option Draft) (u : Session) (d : Draft) : Prop where
  begun : s.begin draft = .ok (u, d)
  word : s.item? draft = some (.word u.wordText)

/-- The next pass goes on, and opens a block with the word it takes. -/
def Opens (s : Session) (draft : Option Draft) (u : Session) : Prop :=
  ∃ t e, s.pass draft = .more t e ∧ t.context.blocks = u.wordText :: s.context.blocks

instance (s : Session) (draft : Option Draft) (u : Session) : Decidable (s.Opens draft u) :=
  match pass : s.pass draft with
  | .more t e =>
    decidable_of_iff (t.context.blocks = u.wordText :: s.context.blocks)
      ⟨fun blocks => ⟨t, e, pass, blocks⟩, fun ⟨_, _, same, blocks⟩ => by
        rw [pass] at same
        cases same
        exact blocks⟩
  | .found _ _ => .isFalse fun ⟨_, _, same, _⟩ => by rw [pass] at same; cases same
  | .finished _ => .isFalse fun ⟨_, _, same, _⟩ => by rw [pass] at same; cases same
  | .failed _ _ => .isFalse fun ⟨_, _, same, _⟩ => by rw [pass] at same; cases same

theorem Scans.readWord (scans : s.Scans draft u d) : s.pass draft = u.readWord d := by
  have word := scans.word
  cases ahead : s.cursor.ahead with
  | nil => simp [item?, ahead] at word
  | cons c rest =>
    cases found : s.gap? draft c with
    | some g =>
      rw [item?_of_gap ahead found] at word
      cases word
    | none =>
      rw [item?_of_begin ahead found scans.begun] at word
      have token : u.dialect.token u.context.startsWord c rest = .word := by
        split at word
        · cases word
        · assumption
        · cases word
      rw [pass_of_begin ahead found scans.begun, readToken, token]

/-- A word that is neither an `END` nor a directive is taken, and at most opens a block. -/
theorem Scans.pass (scans : s.Scans draft u d) (open_ : u.wordText ≠ "END")
    (plain : u.wordText ≠ "DELIMITER") :
    s.pass draft = .more ((u.afterWord.openBlock d u.wordText
        (u.context.tokenAhead? u.afterWord.cursor.ahead)).classify d u.wordText)
      (some (d.afterWord u.wordText)) := by
  have indirect : u.mayDirect d = false := by simp [mayDirect, plain]
  rw [scans.readWord, readWord_eq, indirect, if_neg Bool.false_ne_true, takeWord]
  simp only [beq_iff_eq, open_, if_false]
  rfl

/-- What becomes of the blocks where such a word is taken. -/
theorem Scans.opened (scans : s.Scans draft u d) (open_ : u.wordText ≠ "END")
    (plain : u.wordText ≠ "DELIMITER") :
    ∃ t, s.pass draft = .more t (some (d.afterWord u.wordText)) ∧
      t.context.blocks =
        if u.dialect.blocks.opens (u.scanned d) u.context then u.wordText :: s.context.blocks
        else s.context.blocks := by
  refine ⟨_, scans.pass open_ plain, ?_⟩
  have same : u.context.blocks = s.context.blocks := by
    obtain ⟨kind, rfl⟩ := begin_ok scans.begun
    rfl
  rw [classify_eq, openBlock_eq, ← same]
  rfl

/-- Such a word opens a block if the grammar says so. -/
theorem Scans.opens_iff (scans : s.Scans draft u d) (open_ : u.wordText ≠ "END")
    (plain : u.wordText ≠ "DELIMITER") :
    s.Opens draft u ↔ u.dialect.blocks.opens (u.scanned d) u.context = true := by
  obtain ⟨t, pass, blocks⟩ := scans.opened open_ plain
  constructor
  · rintro ⟨t', e, pass', opened⟩
    rw [pass] at pass'
    cases pass'
    by_contra shut
    rw [blocks, if_neg shut] at opened
    exact List.cons_ne_self _ _ opened.symm
  · intro opens
    exact ⟨t, _, pass, by rw [blocks, if_pos opens]⟩

theorem Scans.blocks (scans : s.Scans draft u d)
    (opener : Opener u.dialect.blocks (u.scanned d) u.context) :
    ∃ t, s.pass draft = .more t (some (d.afterWord u.wordText)) ∧
      t.context.blocks =
        if d.previous = some "END" then s.context.blocks else u.wordText :: s.context.blocks := by
  obtain ⟨open_, plain⟩ := opener.plain
  obtain ⟨t, pass, blocks⟩ := scans.opened open_ plain
  refine ⟨t, pass, ?_⟩
  have follows : (u.scanned d).followsEnd = (d.previous == some "END") := rfl
  rw [blocks, opener.opens_eq, follows]
  by_cases tail : d.previous = some "END"
  · simp [tail]
  · simp [tail]

end Session

variable {s u : Session} {draft : Option Draft} {d : Draft} {items : List Item}

/-- Wherever such a word is read, it opens a block unless the last word before it in the
statement is an `END`. To go by the last token instead would be another rule at the words
that have tokens of another kind between this `END` and them, and only there. -/
theorem opens_iff_lastWord (v : Vendor) (delimiter : Delimiter) (script : String)
    (reached : Session.Reached v.dialect delimiter script s draft items)
    (scans : s.Scans draft u d) (opener : Opener v.dialect.blocks (u.scanned d) u.context) :
    (∃ t, s.pass draft = .more t (some (d.afterWord u.wordText)) ∧
      t.context.blocks = if lastWord? items = some "END" then s.context.blocks
        else u.wordText :: s.context.blocks) ∧
    ((items.getLast? ≠ some (.word "END") → s.Opens draft u) ↔
      ¬ (lastWord? items = some "END" ∧ items.getLast? ≠ some (.word "END"))) := by
  have recalls : d.previous = lastWord? items :=
    Session.recalls_begin (Session.recalls_of_reached reached) scans.begun
  have same : u.dialect = s.dialect := by
    obtain ⟨kind, rfl⟩ := Session.begin_ok scans.begun
    rfl
  rw [← Session.dialect_of_reached reached, ← same] at opener
  obtain ⟨t, pass, blocks⟩ := scans.blocks opener
  rw [recalls] at blocks
  refine ⟨⟨t, pass, blocks⟩, ?_⟩
  constructor
  · rintro rule ⟨last, apart⟩
    obtain ⟨t', e', pass', blocks'⟩ := rule apart
    rw [pass] at pass'
    cases pass'
    rw [blocks, if_pos last] at blocks'
    exact List.cons_ne_self _ _ blocks'.symm
  · intro agree apart
    have other : lastWord? items ≠ some "END" := fun last => agree ⟨last, apart⟩
    exact ⟨t, _, pass, by rw [blocks, if_neg other]⟩

/-- The second `CASE` of this statement comes after a comma, and opens no block. -/
theorem opens_iff_lastWord_comma :
    ∃ s draft items u d, Session.Reached Dialect.generic .semicolon "CASE 1 END, CASE 2 END"
        s draft items ∧
      s.Scans draft u d ∧ u.wordText = "CASE" ∧ lastWord? items = some "END" ∧
      items.getLast? = some (.symbol ',') ∧ ¬ s.Opens draft u := by
  let r := Session.follow 7 (.ofScript .generic .semicolon "CASE 1 END, CASE 2 END") none []
  let u := r.1
  let d := (r.2.1).getD (.begin u.cursor)
  have reached : Session.Reached Dialect.generic .semicolon "CASE 1 END, CASE 2 END"
      r.1 r.2.1 r.2.2 := Session.reached_follow 7 .start
  have scans : r.1.Scans r.2.1 u d := ⟨by decide +kernel, by decide +kernel⟩
  have word : u.wordText = "CASE" := by decide +kernel
  have last : lastWord? r.2.2 = some "END" := by decide +kernel
  have comma : r.2.2.getLast? = some (.symbol ',') := by decide +kernel
  refine ⟨r.1, r.2.1, r.2.2, u, d, reached, scans, word, last, comma, ?_⟩
  intro opens
  have agree := (opens_iff_lastWord .generic .semicolon _ reached scans (.case word)).2.mp
    (fun _ => opens)
  rw [comma] at agree
  exact agree ⟨last, by decide⟩

/-- So two such expressions in one statement do not even give a result. -/
theorem splitFrom_case_comma_case :
    splitFrom .generic .semicolon
        "SELECT CASE WHEN a THEN b END, CASE WHEN c THEN d END FROM t;" =
      .error (.atLine 1 .blockUnderflow) := by
  decide +kernel

end SqlBoundary
