import SqlBoundary.Proofs.Agreement
import SqlBoundary.Proofs.Filler
import SqlBoundary.Proofs.Framed
import SqlBoundary.Proofs.Members
import SqlBoundary.Proofs.Phrases
import SqlBoundary.Proofs.Reachable

/-!
# Words that are part of a longer name

The word behind a dot is the name of a column or of a member, and in MySQL the one behind an `@`
that of a variable. The character before a word is not looked at, so that such a word is read as
any other. What it does follow from is that no procedural statement begins behind such a
character: of the words that open a block only there, none does so as a part of a name.
-/

namespace SqlBoundary

open Text Lexeme

/-- The character makes the word behind it a part of a longer name. -/
def Vendor.Joins (v : Vendor) (c : Char) : Prop := c = '.' ∨ v = .mysql ∧ c = '@'

namespace Session

variable {s t u : Session} {draft e : Option Draft} {d : Draft} {items : List Item}
variable {v : Vendor} {delimiter : Delimiter} {script : String}

/-- What is ahead stands directly behind such a character. -/
def Joined (v : Vendor) (script : String) (s : Session) : Prop :=
  ∃ before c, script.toList = before ++ c :: s.cursor.ahead ∧ v.Joins c

/-- Either no block is open, or no procedural statement may begin here. -/
def Still (s : Session) (draft : Option Draft) : Prop :=
  s.context.blocks = [] ∨ ∃ d, draft = some d ∧ d.clauseStart = false

theorem not_joins_of_blank {c : Char} (blank : isBlank c = true) : ¬ v.Joins c := by
  rintro (rfl | ⟨-, rfl⟩) <;> exact absurd blank (by decide)

theorem not_joins_of_word {ctx : Context} {c : Char} (kind : ctx.kind = v.dialect.kind)
    (word : ctx.isWordChar c = true) : ¬ v.Joins c := by
  rw [v.dialect.isWordChar_eq kind] at word
  rintro (rfl | ⟨rfl, rfl⟩)
  · cases v <;> exact absurd word (by decide +kernel)
  · exact absurd word (by decide +kernel)

/-- A line comment and a line with a delimiter end with their line, a block comment with a
slash. -/
theorem lineEnds_of_filler {dialect : Dialect} {before piece after : List Char}
    (filler : Filler dialect .slash before piece after)
    (last : ∀ c ∈ piece.getLast?, v.Joins c) : LineEnds after := by
  cases filler with
  | blank blank => exact absurd (last _ rfl) (not_joins_of_blank blank)
  | lineComment _ _ ends => exact ends
  | blockComment =>
    have slash : v.Joins '/' := last '/' (by rw [List.getLast?_append]; rfl)
    rcases slash with same | ⟨-, same⟩ <;> exact absurd same (by decide)
  | delimiter occurs =>
    cases occurs with
    | inline kind => cases kind
    | alone _ fills => exact fills.ends
  | terminator _ fills => exact fills.ends

/-- What has been taken last ends with the character before what is ahead. -/
theorem Joined.last (joined : t.Joined v script) {passed piece : List Char}
    (whole : script.toList = passed ++ (piece ++ t.cursor.ahead)) :
    ∀ c ∈ piece.getLast?, v.Joins c := by
  obtain ⟨before, x, split, joins⟩ := joined
  have both : (before ++ [x]) ++ t.cursor.ahead = (passed ++ piece) ++ t.cursor.ahead := by
    rw [List.append_assoc, List.append_assoc, ← whole]
    exact split.symm
  have same : before ++ [x] = passed ++ piece := List.append_cancel_right both
  intro c last
  have ends := congrArg List.getLast? same
  rw [List.getLast?_append, List.getLast?_append, last, List.getLast?_singleton, Option.some_or,
    Option.some_or, Option.some.injEq] at ends
  exact ends ▸ joins

theorem Joined.taken (joined : t.Joined v script) (placed : Placed script.toList s) {n : Nat}
    (moved : t.cursor.ahead = s.cursor.ahead.drop n) :
    ∀ c ∈ (s.cursor.ahead.take n).getLast?, v.Joins c := by
  obtain ⟨passed, whole, -⟩ := placed
  rw [← List.take_append_drop n s.cursor.ahead, ← moved] at whole
  exact joined.last whole

/-- No word ends with such a character. -/
theorem wordText_of_joined (joined : t.Joined v script) (placed : Placed script.toList s)
    (begun : s.begin draft = .ok (u, d)) (kind : u.context.kind = v.dialect.kind)
    (moved : t.cursor.ahead = u.afterWord.cursor.ahead) : u.wordText = "" := by
  have place := begin_cursor begun
  have ahead : t.cursor.ahead = s.cursor.ahead.drop u.word.length := by
    rw [moved, afterWord, skip_cursor, Cursor.skip_ahead, place]
  have taken := joined.taken placed ahead
  have whole : s.cursor.ahead.take u.word.length = u.word := by
    rw [← place]
    exact u.take_word
  rw [whole] at taken
  cases last : u.word.getLast? with
  | none =>
    rw [wordText, List.getLast?_eq_none_iff.mp last]
    rfl
  | some c =>
    have word := Context.isWordChar_of_mem_wordAhead (List.mem_of_getLast? last)
    exact absurd (taken c last) (not_joins_of_word kind word)

theorem step_still (h : Step s draft t e) (vendor : s.dialect = v.dialect)
    (typed : s.Typed draft) (placed : Placed script.toList s) (joined : t.Joined v script) :
    LineEnds t.cursor.ahead ∨ t.Still e := by
  cases h with
  | @gap _ _ _ _ n ahead found length =>
    obtain ⟨_, _, place⟩ := id placed
    have filler := filler_of_gap place ahead found length .slash
    have moved := Cursor.skip_ahead n s.cursor
    rw [← moved] at filler
    exact Or.inl (lineEnds_of_filler filler (joined.taken placed moved))
  | delimiter _ found =>
    obtain ⟨closed, -⟩ := delimiterLength?_eq_some (delimiter_of_gap? found).2
    exact Or.inr (Or.inl closed)
  | text => exact Or.inr (Or.inr ⟨_, rfl, rfl⟩)
  | @symbol _ c rest u d ahead _ begun =>
    refine Or.inr (Or.inr ⟨_, rfl, ?_⟩)
    have moved : ((u.skip 1).countParen c).cursor.ahead = s.cursor.ahead.drop 1 := by
      rw [countParen_eq, ← begin_cursor begun]
      exact Cursor.skip_ahead 1 u.cursor
    have joins : v.Joins c := joined.taken placed moved c (by rw [ahead]; rfl)
    rcases joins with rfl | ⟨-, rfl⟩ <;> rfl
  | directive =>
    refine Or.inl ?_
    rw [direct_ahead]
    exact lineEnds_drop_lineLength _
  | @word _ _ _ _ u _ d _ _ begun _ _ taken =>
    have kind : u.context.kind = v.dialect.kind := (typed_begin typed begun).trans (by rw [vendor])
    obtain ⟨rfl, blocks, lastClosed, warnings, rfl⟩ := takeWord_more taken
    have empty := wordText_of_joined joined placed begun kind (by rw [classify_eq])
    refine Or.inr (Or.inr ⟨_, rfl, ?_⟩)
    rw [empty]
    rfl

theorem failed_still {fault : Fault} (searches : v.dialect.Searches)
    (h : s.pass draft = .failed t fault) (vendor : s.dialect = v.dialect) (typed : s.Typed draft)
    (placed : Placed script.toList s) (joined : t.Joined v script) : LineEnds t.cursor.ahead := by
  cases fails_of_pass h with
  | comment _ found =>
    exact Or.inl (skip_all (unclosed_comment (comment_of_gap? found).2))
  | unclassified _ _ failed =>
    have known : s.dialect.kind ≠ .unknown := by
      rw [vendor]
      cases v <;> decide
    cases draft with
    | some d => cases failed
    | none => simp [begin, Context.setKind, known] at failed
  | @text _ _ u _ _ _ ahead _ begun token =>
    have place := begin_cursor begun
    rw [begin_dialect begun, vendor] at token
    have long := unclosed_text searches token
    rw [← ahead, ← place] at long
    exact Or.inl (skip_all long)
  | @directive _ _ u d _ _ _ begun _ may =>
    have kind : u.context.kind = v.dialect.kind := (typed_begin typed begun).trans (by rw [vendor])
    have empty := wordText_of_joined joined placed begun kind rfl
    rw [(mayDirect_iff.mp may).2.1] at empty
    exact absurd empty (by decide)
  | @underflow _ _ u d _ _ begun _ ending =>
    have kind : u.context.kind = v.dialect.kind := (typed_begin typed begun).trans (by rw [vendor])
    have empty := wordText_of_joined joined placed begun kind rfl
    rw [ending] at empty
    exact absurd empty (by decide)
  | unclosed ahead => exact Or.inl ahead

theorem still_of_joined (searches : v.dialect.Searches)
    (h : Reached v.dialect delimiter script s draft items) (joined : s.Joined v script) :
    LineEnds s.cursor.ahead ∨ s.Still draft := by
  cases h with
  | start => exact Or.inr (Or.inl rfl)
  | more before pass =>
    exact step_still (step_of_pass pass) (dialect_of_reached before) (reached_typed before)
      (reached_placed before) joined
  | outside before pass =>
    exact step_still (step_of_pass pass) (dialect_of_reached before) (reached_typed before)
      (reached_placed before) joined
  | @again s t draft _ result exhausted before answer =>
    cases pass : s.pass draft with
    | more => simp [pass, Pass.answer?] at answer
    | found x statement =>
      rw [pass] at answer
      cases answer
      have closed := outside_of_found pass
      obtain ⟨n, rfl⟩ := restored_of_found pass
      exact Or.inr (Or.inl closed)
    | finished x =>
      rw [pass] at answer
      cases answer
      obtain ⟨-, -, closed, rfl⟩ := pass_finished pass
      exact Or.inr (Or.inl closed)
    | failed x fault =>
      rw [pass] at answer
      cases answer
      have joined' : t.Joined v script := joined
      have ends := failed_still (t := t) searches pass (dialect_of_reached before)
        (reached_typed before) (reached_placed before) joined'
      exact Or.inl ends

end Session

namespace BlockGrammar

variable {grammar : BlockGrammar} {w : Word} {ctx : Context}

/-- The word opens a block wherever it stands, as far as the rest of the statement allows. -/
inductive OpensAnywhere (grammar : BlockGrammar) (w : Word) (ctx : Context) : Prop
  | begin (text : w.text = "BEGIN") (next : ∃ next ∈ w.next, next ∉ transactionWords)
  | case (text : w.text = "CASE") (first : w.previous ≠ some "END")
  | loop (oracle : grammar = .oracle) (text : w.text = "LOOP") (first : w.previous ≠ some "END")
  | members (oracle : grammar = .oracle) (text : w.text ∈ ["AS", "IS"]) (outside : ctx.blocks = [])
      (named : declaresMembers w.leading = true)
  | member (oracle : grammar = .oracle) (text : w.text ∈ ["PROCEDURE", "FUNCTION"])
      (inside : ctx.innermost ∈ declarationBlocks)
      (body : (nextKeyword? w.ahead ["IS", "AS"]).isSome = true)
  | compound (oracle : grammar = .oracle) (text : w.text = "TRIGGER")
      (named : w.previous = some "COMPOUND")

/-- An `END` opens nothing, nor does a directive. -/
theorem OpensAnywhere.unlisted (h : grammar.OpensAnywhere w ctx) :
    w.text ∉ ["END", "DELIMITER"] := by
  intro other
  have listed : w.text ∈ ["BEGIN", "CASE", "LOOP", "AS", "IS", "PROCEDURE", "FUNCTION",
      "TRIGGER"] := by
    cases h with
    | members _ text | member _ text =>
      revert text
      simp only [List.mem_cons, List.not_mem_nil, or_false]
      rintro (text | text) <;> simp [text]
    | _ => simp_all
  have apart : ∀ text ∈ ["END", "DELIMITER"], text ∉ ["BEGIN", "CASE", "LOOP", "AS", "IS",
      "PROCEDURE", "FUNCTION", "TRIGGER"] := by decide
  exact apart _ other listed

/-- It does not matter whether a procedural statement may begin. -/
theorem OpensAnywhere.clause (h : grammar.OpensAnywhere w ctx) (clause : Bool) :
    grammar.OpensAnywhere { w with clauseStart := clause } ctx := by
  cases h with
  | begin text next => exact .begin text next
  | case text first => exact .case text first
  | loop oracle text first => exact .loop oracle text first
  | members oracle text outside named => exact .members oracle text outside named
  | member oracle text inside body => exact .member oracle text inside body
  | compound oracle text named => exact .compound oracle text named

theorem opensAnywhere_clause (clause : Bool) :
    grammar.OpensAnywhere { w with clauseStart := clause } ctx ↔ grammar.OpensAnywhere w ctx :=
  ⟨fun h => h.clause w.clauseStart, fun h => h.clause clause⟩

theorem opensCommon_iff : opensCommon w = true ↔
    w.text = "BEGIN" ∧ (∃ next ∈ w.next, next ∉ transactionWords) ∨
      w.text = "CASE" ∧ w.previous ≠ some "END" := by
  rw [opensCommon]
  split
  · next text => cases next : w.next <;> simp [text, beginsTransaction]
  · next text => simp [text, Word.followsEnd]
  · next begin case =>
    refine iff_of_false Bool.false_ne_true ?_
    rintro (⟨text, -⟩ | ⟨text, -⟩)
    · exact begin text
    · exact case text

theorem opensControlFlow_still (still : ctx.blocks = [] ∨ w.clauseStart = false) :
    opensControlFlow w ctx = false := by
  rcases still with closed | still
  · simp [opensControlFlow, Context.blockDepth, closed]
  · simp [opensControlFlow, still]

theorem opensUnit_still (still : ctx.blocks = [] ∨ w.clauseStart = false) :
    opensUnit w ctx = true ↔ w.text = "LOOP" ∧ w.previous ≠ some "END" ∨
      w.text ∈ ["AS", "IS"] ∧ ctx.blocks = [] ∧ declaresMembers w.leading = true ∨
      w.text ∈ ["PROCEDURE", "FUNCTION"] ∧ ctx.innermost ∈ declarationBlocks ∧
        (nextKeyword? w.ahead ["IS", "AS"]).isSome = true ∨
      w.text = "TRIGGER" ∧ w.previous = some "COMPOUND" := by
  have branch : (ctx.blockDepth != 0 && w.clauseStart) = false := by
    rcases still with closed | still
    · simp [Context.blockDepth, closed]
    · simp [still]
  rw [opensUnit]
  split <;> simp_all [Word.followsEnd, Context.blockDepth]

/-- Where no procedural statement may begin, or no block is open, these are all. -/
theorem opens_iff_anywhere
    (still : grammar = .common ∨ ctx.blocks = [] ∨ w.clauseStart = false) :
    grammar.opens w ctx = true ↔ grammar.OpensAnywhere w ctx := by
  have common_ : grammar.opens w ctx = true ↔ opensCommon w = true ∨
      grammar = .oracle ∧ opensUnit w ctx = true := by
    cases grammar with
    | common => simp [opens]
    | mysql => simp [opens, opensControlFlow_still (still.resolve_left (by decide))]
    | oracle => simp [opens]
  rw [common_, opensCommon_iff]
  constructor
  · rintro ((⟨text, next⟩ | ⟨text, first⟩) | ⟨oracle, unit⟩)
    · exact .begin text next
    · exact .case text first
    · have still := still.resolve_left (by rw [oracle]; decide)
      rcases (opensUnit_still still).mp unit with
        ⟨text, first⟩ | ⟨text, outside, named⟩ | ⟨text, inside, body⟩ | ⟨text, named⟩
      · exact .loop oracle text first
      · exact .members oracle text outside named
      · exact .member oracle text inside body
      · exact .compound oracle text named
  · intro h
    have unit (oracle : grammar = .oracle) :=
      (opensUnit_still (still.resolve_left (by rw [oracle]; decide))).mpr
    cases h with
    | begin text next => exact Or.inl (Or.inl ⟨text, next⟩)
    | case text first => exact Or.inl (Or.inr ⟨text, first⟩)
    | loop oracle text first => exact Or.inr ⟨oracle, unit oracle (Or.inl ⟨text, first⟩)⟩
    | members oracle text outside named =>
      exact Or.inr ⟨oracle, unit oracle (Or.inr (Or.inl ⟨text, outside, named⟩))⟩
    | member oracle text inside body =>
      exact Or.inr ⟨oracle, unit oracle (Or.inr (Or.inr (Or.inl ⟨text, inside, body⟩)))⟩
    | compound oracle text named =>
      exact Or.inr ⟨oracle, unit oracle (Or.inr (Or.inr (Or.inr ⟨text, named⟩)))⟩

end BlockGrammar

namespace Session

variable {s t u : Session} {draft e : Option Draft} {d : Draft} {items : List Item}
variable {v : Vendor} {delimiter : Delimiter} {script : String}

/-- The next pass opens a block or closes one, or fails to close one since none is open. -/
def MovesBlocks (s : Session) (draft : Option Draft) : Prop :=
  (∃ t e, s.pass draft = .more t e ∧ t.context.blocks ≠ s.context.blocks) ∨
    ∃ t line, s.pass draft = .failed t (.atLine line .blockUnderflow)

theorem movesBlocks_of_more (pass : s.pass draft = .more t e) :
    s.MovesBlocks draft ↔ t.context.blocks ≠ s.context.blocks := by
  rw [MovesBlocks, pass]
  simp

theorem Scans.inside (scans : s.Scans draft u d) : ¬ LineEnds s.cursor.ahead := by
  have word := scans.word
  rintro (ended | ⟨rest, ahead⟩)
  · simp [item?, ended] at word
  · have blank : s.gap? draft '\n' = some .blank := by
      rw [gap?, if_pos isBlank_lineFeed]
    rw [item?_of_gap ahead blank] at word
    cases word

/-- An `END` closes a block, unless none is open and it begins a statement of a dialect that has
such statements. -/
theorem Scans.movesBlocks_end (scans : s.Scans draft u d) (text : u.wordText = "END") :
    s.MovesBlocks draft ↔
      u.context.blocks ≠ [] ∨ d.leading ≠ [] ∨ u.dialect.standaloneEnd = false := by
  have same : u.context.blocks = s.context.blocks := by
    obtain ⟨kind, rfl⟩ := begin_ok scans.begun
    rfl
  have undirected : u.mayDirect d = false := by simp [mayDirect, text]
  have read := scans.readWord
  rw [readWord_eq, undirected, if_neg Bool.false_ne_true, text, takeWord, beq_self_eq_true,
    if_pos rfl] at read
  have blocks : u.afterWord.context.blocks = u.context.blocks := rfl
  have dialect : u.afterWord.dialect = u.dialect := rfl
  cases inside : u.context.blocks with
  | nil =>
    rw [closeBlock_nil (blocks.trans inside), dialect] at read
    by_cases stands : d.leading.isEmpty && u.dialect.standaloneEnd
    · rw [if_pos stands] at read
      simp only [Bool.and_eq_true, List.isEmpty_iff] at stands
      rw [movesBlocks_of_more read, classify_eq, ← same]
      simp [stands, afterWord, Context.setDelimiter]
    · rw [if_neg stands] at read
      simp only [Bool.and_eq_true, List.isEmpty_iff, not_and, Bool.not_eq_true] at stands
      refine iff_of_true (Or.inr ⟨_, _, read⟩) (Or.inr ?_)
      by_cases first : d.leading = []
      · exact Or.inr (stands first)
      · exact Or.inl first
  | cons initiator outer =>
    rw [closeBlock_cons (blocks.trans inside)] at read
    refine iff_of_true ?_ (Or.inl (List.cons_ne_nil _ _))
    rw [movesBlocks_of_more read, classify_eq, ← same, inside]
    change (u.afterWord.context.leave u.afterWord.dialect.blocks initiator outer).blocks ≠ _
    rw [Context.leave]
    intro kept
    have lengths := congrArg List.length kept
    split at lengths <;> simp at lengths

/-- A directive has no effect on the blocks, and neither has the word if it is none. -/
theorem Scans.movesBlocks_directive (scans : s.Scans draft u d) (text : u.wordText = "DELIMITER") :
    ¬ s.MovesBlocks draft := by
  have same : u.context.blocks = s.context.blocks := by
    obtain ⟨kind, rfl⟩ := begin_ok scans.begun
    rfl
  have taken : ∃ t e, u.afterWord.takeWord d u.wordText = .more t e ∧
      t.context.blocks = s.context.blocks := by
    have unlisted : "DELIMITER" ∉ u.afterWord.dialect.blocks.openers := by
      cases u.afterWord.dialect.blocks <;> decide
    have shut : ∀ next, u.afterWord.dialect.blocks.opens
        (u.afterWord.asWord d "DELIMITER" next) u.afterWord.context = false :=
      fun next => BlockGrammar.opens_other unlisted
    refine ⟨_, _, by rw [text, takeWord]; rfl, ?_⟩
    rw [classify_eq, openBlock_eq, shut, ← same]
    rfl
  obtain ⟨t, e, taken, kept⟩ := taken
  have read := scans.readWord
  rw [readWord_eq, taken] at read
  split at read
  · split at read
    · next fault line =>
      obtain ⟨word, rfl⟩ := directive?_eq_error line
      rw [MovesBlocks, read]
      simp
    · rw [movesBlocks_of_more read, not_not, ← same]
      rfl
    · rw [movesBlocks_of_more read, not_not, kept]
  · rw [movesBlocks_of_more read, not_not, kept]

/-- The word ahead, with what is read of the statement before it. -/
def wordAmong (u : Session) (items : List Item) : Word where
  text := u.wordText
  previous := lastWord? items
  next := u.context.tokenAhead? u.afterWord.cursor.ahead
  leading := firstWords items
  clauseStart := false
  ahead := u.afterWord.cursor.ahead

theorem firstWords_eq_nil_iff : firstWords items = [] ↔ words items = [] := by
  rw [firstWords, List.take_eq_nil_iff]
  exact or_iff_right (by decide)

theorem wordAmong_eq (reached : Reached v.dialect delimiter script s draft items)
    (begun : s.begin draft = .ok (u, d)) :
    u.wordAmong items = { u.scanned d with clauseStart := false } := by
  have leading : d.leading = firstWords items :=
    tracks_leading.told_begin (tracks_leading.told_of_reached reached) begun
  have previous : d.previous = lastWord? items :=
    tracks_previous.told_begin (tracks_previous.told_of_reached reached) begun
  rw [wordAmong, ← leading, ← previous]
  rfl

/-- Behind a character that joins it to a longer name, a word moves the blocks just if it is an
`END`, or a word that opens one wherever it stands. -/
theorem movesBlocks_of_joined (reached : Reached v.dialect delimiter script s draft items)
    (scans : s.Scans draft u d) (joined : s.Joined v script) :
    s.MovesBlocks draft ↔
      u.wordText = "END" ∧
          (u.context.blocks ≠ [] ∨ words items ≠ [] ∨ v.dialect.standaloneEnd = false) ∨
        v.dialect.blocks.OpensAnywhere (u.wordAmong items) u.context := by
  have dialect : u.dialect = v.dialect :=
    (begin_dialect scans.begun).trans (dialect_of_reached reached)
  have blocks : u.context.blocks = s.context.blocks := by
    obtain ⟨kind, rfl⟩ := begin_ok scans.begun
    rfl
  have leading : d.leading = firstWords items :=
    tracks_leading.told_begin (tracks_leading.told_of_reached reached) scans.begun
  have unlisted (anywhere : v.dialect.blocks.OpensAnywhere (u.wordAmong items) u.context) :
      u.wordText ∉ ["END", "DELIMITER"] := anywhere.unlisted
  by_cases ending : u.wordText = "END"
  · rw [scans.movesBlocks_end ending, leading, dialect, ne_eq (firstWords items),
      firstWords_eq_nil_iff]
    have shut := mt unlisted (by simp [ending])
    simp [ending, shut]
  by_cases directive : u.wordText = "DELIMITER"
  · have shut := mt unlisted (by simp [directive])
    simp [ending, shut, scans.movesBlocks_directive directive]
  obtain ⟨t, pass, after⟩ := scans.opened ending directive
  have still : v.dialect.blocks = .common ∨ u.context.blocks = [] ∨
      (u.scanned d).clauseStart = false := by
    refine (em v.dialect.Searches).symm.imp (fun common => ?_) fun searches => ?_
    · cases v with
      | mysql => exact absurd (Or.inl rfl) common
      | oracle => exact absurd (Or.inr rfl) common
      | generic | postgres | sqlserver => rfl
    · rw [blocks]
      rcases still_of_joined searches reached joined with ends | closed | ⟨x, held, clause⟩
      · exact absurd ends scans.inside
      · exact Or.inl closed
      · rcases begin_eq_ok_iff.mp scans.begun with ⟨same, -⟩ | ⟨none, -⟩
        · rw [held, Option.some.injEq] at same
          exact Or.inr (same ▸ clause)
        · rw [held] at none
          cases none
  have opens := BlockGrammar.opens_iff_anywhere still
  rw [← BlockGrammar.opensAnywhere_clause false, ← wordAmong_eq reached scans.begun] at opens
  rw [movesBlocks_of_more pass, after, dialect, ← opens]
  by_cases opened : v.dialect.blocks.opens (u.scanned d) u.context = true
  · simp [opened]
  · simp [opened, ending]

end Session

end SqlBoundary
