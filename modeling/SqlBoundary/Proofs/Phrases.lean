import SqlBoundary.Proofs.Reads

/-!
# Phrases of stored programs

What the programs of both grammars are made of: names, comparisons, and blocks whose `END` is
followed by a word for the block. Names are free of the words that the grammars go by, so that
each token of a program is known to open a block, to close one or to do neither.
-/

namespace SqlBoundary

open Text Lexeme

namespace BlockGrammar

variable {grammar : BlockGrammar} {w : Word} {ctx : Context}

/-- The words that may open a block. -/
def openers : BlockGrammar → List String
  | common => ["BEGIN", "CASE"]
  | mysql => ["BEGIN", "CASE", "IF", "LOOP", "WHILE", "REPEAT"]
  | oracle => ["BEGIN", "CASE", "LOOP", "IF", "AS", "IS", "PROCEDURE", "FUNCTION", "TRIGGER"]

/-- The keywords that tell the statement `IF` from the function: the first one behind the
statement is `THEN`. -/
def branchKeywords : List String := ["THEN", "WHEN", "ELSE", "END"]

theorem opens_other (other : w.text ∉ grammar.openers) : grammar.opens w ctx = false := by
  cases grammar with
  | common =>
    simp only [openers, List.mem_cons, List.not_mem_nil, or_false, not_or] at other
    simp [opens, opensCommon, other]
  | mysql =>
    simp only [openers, List.mem_cons, List.not_mem_nil, or_false, not_or] at other
    simp [opens, opensCommon, opensControlFlow, other]
  | oracle =>
    simp only [openers, List.mem_cons, List.not_mem_nil, or_false, not_or] at other
    simp [opens, opensCommon, opensUnit, other]

/-- The name of a kind of block opens nothing behind an `END`. -/
theorem opens_named (named : w.text ∈ Session.blockNames) (behind : w.followsEnd = true) :
    grammar.opens w ctx = false := by
  simp only [Session.blockNames, List.mem_cons, List.not_mem_nil, or_false] at named
  rcases named with text | text | text | text | text <;> cases grammar <;>
    simp [opens, opensCommon, opensControlFlow, opensUnit, text, behind]

theorem opens_case (case : w.text = "CASE") (first : w.followsEnd = false) :
    grammar.opens w ctx = true := by
  simp [opens, opensCommon, case, first]

theorem opens_eq_of_begin (begin : w.text = "BEGIN") :
    grammar.opens w ctx = !beginsTransaction w.next := by
  cases grammar <;> simp [opens, opensCommon, opensControlFlow, opensUnit, begin]

theorem opens_begin {next : String} (begin : w.text = "BEGIN") (seen : w.next = some next)
    (other : next ∉ transactionWords) : grammar.opens w ctx = true := by
  have plain : beginsTransaction w.next = false := by
    simpa [seen, beginsTransaction] using other
  rw [opens_eq_of_begin begin, plain]
  rfl

/-- Only a `BEGIN` shares its `END`. -/
theorem closesEnclosing_other {closed : String} (other : closed ≠ "BEGIN") :
    grammar.closesEnclosing closed ctx = false := by
  cases grammar <;> simp [closesEnclosing, other]

end BlockGrammar

/-- A word that opens no block and closes none goes into the draft alone. -/
theorem Session.takeWord_unlisted {s : Session} {d : Draft} {text : String}
    (other : text ∉ "END" :: s.dialect.blocks.openers)
    (asks : d.asks s.dialect.blocks text = none) :
    s.takeWord d text = .more s (some (d.afterWord text)) := by
  rw [List.mem_cons, not_or] at other
  rw [takeWord_name other.1 asks, BlockGrammar.opens_other other.2]
  rfl

theorem Context.inside {ctx : Context} {blocks : List String} (same : ctx.blocks = blocks)
    (nonempty : blocks ≠ []) : (ctx.blockDepth != 0) = true := by
  simp [Context.blockDepth, same, nonempty]

/-- One name compared with another. -/
def comparison {reserved : List String} (v w : Name reserved) : List Piece :=
  [.word v.text, .sign '>', .word w.text]

/-- The end of a block, with the word that is put behind it. -/
def closing (name : String) : List Piece := [.word "END", .word name, .sign ';']

namespace Scene

/-- Before a statement, inside these blocks. -/
def ready (blocks : List String) : Mode := ⟨blocks, 0, true, false⟩

/-- No name of the programs read is a word that decides about blocks. -/
structure Language (sc : Scene) (reserved : List String) : Prop extends sc.Body where
  openers : ∀ text ∈ "END" :: sc.dialect.blocks.openers, text ∈ reserved
  kinds : ∀ text ∈ Session.blockNames, text ∈ reserved
  transactions : ∀ text ∈ BlockGrammar.transactionWords, text = ";" ∨ text ∈ reserved

variable {sc : Scene} {reserved : List String} {ts us : List Piece} {m n : Mode} {text : String}
variable {blocks outer left : List String} {clause ended : Bool}

theorem Language.plain (language : sc.Language reserved) (v : Name reserved) :
    v.text ∉ "END" :: sc.dialect.blocks.openers :=
  fun mem => v.free (language.openers v.text mem)

theorem Language.unnamed (language : sc.Language reserved) (v : Name reserved) :
    v.text ∉ Session.blockNames :=
  fun mem => v.free (language.kinds v.text mem)

theorem Language.no_transaction (language : sc.Language reserved) (v : Name reserved) :
    v.text ∉ BlockGrammar.transactionWords := by
  intro mem
  rcases language.transactions v.text mem with semicolon | listed
  · have identifier := v.identifier
    rw [semicolon] at identifier
    exact absurd identifier (by decide)
  · exact v.free listed

/-- A word that neither opens a block nor closes one. -/
theorem Reads.plain (body : sc.Body) (other : text ∉ "END" :: sc.dialect.blocks.openers)
    (later : sc.Reads ts us ⟨m.blocks, m.parens, Draft.clauseOpeners.contains text, false⟩ n) :
    sc.Reads (.word text :: ts) us m n := by
  rw [List.mem_cons, not_or] at other
  refine Reads.word body other.1 false ?_ later
  rintro w ctx met -
  exact BlockGrammar.opens_other (met.text ▸ other.2)

theorem Reads.name (language : sc.Language reserved) (v : Name reserved)
    (later : sc.Reads ts us ⟨m.blocks, m.parens, false, false⟩ n) :
    sc.Reads (.word v.text :: ts) us m n :=
  .plain language.toBody (language.plain v) (.forget later)

theorem Reads.compared (language : sc.Language reserved) (v w : Name reserved)
    (later : sc.Reads ts us ⟨m.blocks, m.parens, false, false⟩ n) :
    sc.Reads (comparison v w ++ ts) us m n :=
  .name language v <| .sign language.toBody (Or.inr (Or.inl (by decide))) false nofun <|
    .name language w later

theorem Reads.case (body : sc.Body) (fresh : m.ended = false)
    (later : sc.Reads ts us ⟨"CASE" :: m.blocks, m.parens, false, false⟩ n) :
    sc.Reads (.word "CASE" :: ts) us m n := by
  refine Reads.word body (by decide) true ?_ later
  rintro w ctx met -
  exact BlockGrammar.opens_case met.text (met.ended.trans fresh)

theorem Reads.begin {piece : Piece} (body : sc.Body) (head : piece ∈ ts.head?)
    (other : piece.text ∉ BlockGrammar.transactionWords)
    (later : sc.Reads ts us ⟨"BEGIN" :: m.blocks, m.parens, true, false⟩ n) :
    sc.Reads (.word "BEGIN" :: ts) us m n := by
  refine Reads.word body (by decide) true ?_ later
  rintro w ctx met -
  exact BlockGrammar.opens_begin met.text (met.next piece head) other

/-- The name of a kind of block, behind the `END` of one. -/
theorem Reads.named (body : sc.Body) (word : text ∈ Session.blockNames) (behind : m.ended = true)
    (later : sc.Reads ts us ⟨m.blocks, m.parens, Draft.clauseOpeners.contains text, false⟩ n) :
    sc.Reads (.word text :: ts) us m n := by
  have other : text ≠ "END" := ne_of_mem_of_not_mem word (by decide)
  refine Reads.word body other false ?_ later
  rintro w ctx met -
  exact BlockGrammar.opens_named (met.text ▸ word) (met.ended.trans behind)

/-- A block is closed by the word that opened it. -/
theorem Reads.closed (body : sc.Body) (inside : blocks ≠ []) (word : text ∈ Session.blockNames)
    (later : sc.Reads ts us (ready blocks) n) :
    sc.Reads (closing text ++ ts) us ⟨text :: blocks, 0, clause, ended⟩ n := by
  have other : text ≠ "BEGIN" := ne_of_mem_of_not_mem word (by decide)
  have shares : ∀ ctx : Context, ctx.blocks = blocks →
      (if sc.dialect.blocks.closesEnclosing text ctx then blocks.tail else blocks) = blocks := by
    rintro ctx -
    rw [BlockGrammar.closesEnclosing_other other]
    rfl
  exact .close body rfl shares rfl (fun _ => rfl) <|
    .named body word rfl (.sign body (Or.inl inside) true (fun _ => Or.inl rfl) later)

/-- A block is closed by its name. -/
theorem Reads.ending {initiator : String} (language : sc.Language reserved) (name : Name reserved)
    (shares : ∀ ctx : Context, ctx.blocks = outer →
      (if sc.dialect.blocks.closesEnclosing initiator ctx then outer.tail else outer) = left)
    (on : left ≠ [] ∨ sc.delimiter = .slash) (later : sc.Reads ts us (ready left) n) :
    sc.Reads (closing name.text ++ ts) us ⟨initiator :: outer, 0, clause, ended⟩ n :=
  .close language.toBody rfl shares rfl (fun mem => absurd mem (language.unnamed name)) <|
    .name language name <|
    .sign language.toBody (on.imp_right Or.inr) true (fun _ => Or.inl rfl) later

variable {dialect : Dialect}

/-- A script that begins with `CREATE` is read on outside any block. -/
theorem stands_create {after cs : List Char} (procedural : dialect.Procedural)
    (ends : EndsWord after) (laid : Laid after (.word "CREATE" :: ts) cs) :
    ∃ t e, Session.Passes (.ofScript dialect .semicolon (String.ofList cs)) none t (some e) ∧
      e.start = .start cs ∧ e.leading = ["CREATE"] ∧
      Stands ⟨dialect, .semicolon, ["CREATE"], after⟩ ts ⟨[], 0, false, false⟩ t e := by
  obtain ⟨word, gap, rest, rfl, spelled, blank, apart, later⟩ := laid.of_word
  let s := Session.ofScript dialect .semicolon (String.ofList (word ++ (gap ++ rest)))
  let u : Session := { s with context := { s.context with kind := dialect.kind } }
  let d := Draft.begin s.cursor
  have ahead : s.cursor.ahead = word ++ (gap ++ rest) := String.toList_ofList
  have known : dialect.kind ≠ .unknown := by
    rcases procedural with rfl | rfl <;> decide
  have begun : s.begin none = .ok (u, d) :=
    Session.begin_eq_ok_iff.mpr (Or.inr ⟨rfl, known, rfl, rfl⟩)
  have asked : d.asks dialect.blocks "CREATE" = none := by
    rcases procedural with rfl | rfl <;> rfl
  have taken : (u.skip word.length).takeWord d "CREATE" =
      .more (u.skip word.length) (some (d.afterWord "CREATE")) := by
    have other : "CREATE" ∉ "END" :: dialect.blocks.openers := by
      rcases procedural with rfl | rfl <;> decide
    exact Session.takeWord_unlisted other asked
  have passes := Session.passes_word spelled ahead blank (later.endsWord ends blank apart)
    (fun c plain => ⟨procedural, Or.inl rfl, Or.inr (Or.inl plain)⟩) begun
    (Or.inr (by decide)) taken rfl
  refine ⟨_, _, passes, ?_, rfl, ?_, rfl, rfl, rfl, rfl, rfl, Bool.noConfusion, rfl,
    List.prefix_rfl, rfl, rfl⟩
  · change Cursor.start (String.ofList (word ++ (gap ++ rest))).toList = _
    rw [String.toList_ofList]
  · change Laid after ts ((s.cursor.skip word.length).skip gap.length).ahead
    rw [Cursor.skip_ahead, Cursor.skip_ahead, ahead, List.drop_left, List.drop_left]
    exact later

end Scene

end SqlBoundary
