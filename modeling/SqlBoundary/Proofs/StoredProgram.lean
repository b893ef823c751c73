import SqlBoundary.Proofs.Phrases

/-!
# Stored programs of MySQL

A procedure is kept whole, whatever its body. Control flow opens a block only where a statement
may begin, and every `END` of it is followed by the word that opened the block, so that the blocks
before and after a statement are the same, to any depth.
-/

namespace SqlBoundary

open Text Lexeme Scene

/-- The words that are no names in these programs. -/
def StoredProgram.reserved : List String :=
  ["BEGIN", "END", "CASE", "IF", "ELSEIF", "ELSE", "THEN", "WHEN", "LOOP", "WHILE", "DO", "REPEAT",
   "UNTIL", "DELIMITER", "TRANSACTION", "TRAN", "WORK", "DEFERRED", "IMMEDIATE", "EXCLUSIVE",
   "DISTRIBUTED", "ISOLATION", "READ"]

namespace StoredProgram

abbrev Var := Name reserved

inductive Part
  | statements
  | branches
  | otherwise

/-- The parts of a body: statements one after another, the branches of an `IF` behind its first,
and what is done otherwise. -/
inductive Syntax : Part → Type
  | done : Syntax .statements
  | set (v w : Var) (rest : Syntax .statements) : Syntax .statements
  | choose (v w : Var) (body : Syntax .statements) (others : Syntax .branches)
      (rest : Syntax .statements) : Syntax .statements
  | whileDo (v w : Var) (body rest : Syntax .statements) : Syntax .statements
  | repeatUntil (body : Syntax .statements) (v w : Var) (rest : Syntax .statements) :
      Syntax .statements
  | loop (label : Option Var) (body rest : Syntax .statements) : Syntax .statements
  | select (v w : Var) (body : Syntax .statements) (other : Syntax .otherwise)
      (rest : Syntax .statements) : Syntax .statements
  | block (label : Var) (body rest : Syntax .statements) : Syntax .statements
  | elseIf (v w : Var) (body : Syntax .statements) (others : Syntax .branches) : Syntax .branches
  | last (other : Syntax .otherwise) : Syntax .branches
  | nothing : Syntax .otherwise
  | orElse (body : Syntax .statements) : Syntax .otherwise

end StoredProgram

open StoredProgram

/-- The procedure with this name and this body. -/
structure StoredProgram where
  name : Var
  body : Syntax .statements

namespace StoredProgram

def labelled : Option Var → List Piece
  | none => []
  | some label => [.word label.text, .sign ':']

def Syntax.tokens {part : Part} : Syntax part → List Piece
  | done => []
  | set v w rest =>
    [.word "SET", .word v.text, .sign '=', .word w.text, .sign ';'] ++ rest.tokens
  | choose v w body others rest =>
    .word "IF" :: comparison v w ++ .word "THEN" :: body.tokens ++ others.tokens ++
      closing "IF" ++ rest.tokens
  | whileDo v w body rest =>
    .word "WHILE" :: comparison v w ++ .word "DO" :: body.tokens ++ closing "WHILE" ++ rest.tokens
  | repeatUntil body v w rest =>
    .word "REPEAT" :: body.tokens ++ .word "UNTIL" :: comparison v w ++ closing "REPEAT" ++
      rest.tokens
  | loop label body rest =>
    labelled label ++ .word "LOOP" :: body.tokens ++ closing "LOOP" ++ rest.tokens
  | select v w body other rest =>
    [.word "CASE", .word v.text, .word "WHEN", .word w.text, .word "THEN"] ++ body.tokens ++
      other.tokens ++ closing "CASE" ++ rest.tokens
  | block label body rest =>
    [.word label.text, .sign ':', .word "BEGIN"] ++ body.tokens ++ closing label.text ++ rest.tokens
  | elseIf v w body others =>
    .word "ELSEIF" :: comparison v w ++ .word "THEN" :: body.tokens ++ others.tokens
  | last other => other.tokens
  | nothing => []
  | orElse body => .word "ELSE" :: body.tokens

def tokens (p : StoredProgram) : List Piece :=
  [.word "CREATE", .word "PROCEDURE", .word p.name.text, .sign '(', .sign ')', .word "BEGIN"] ++
    p.body.tokens ++ [.word "END", .sign ';']

end StoredProgram

/-- The scene of a procedure's body. -/
def Scene.mysql : Scene := ⟨.mysql, .semicolon, ["CREATE"], []⟩

namespace StoredProgram

variable {ts us : List Piece} {blocks : List String} {n : Mode} {text : String}

theorem language_mysql : Scene.mysql.Language reserved where
  procedural := Or.inl rfl
  ordinary := Or.inl rfl
  begun := by decide
  ends := nofun
  settled := nofun
  openers := by decide
  kinds := by decide
  transactions := by decide

/-- Where a statement may begin, each of these words opens a block. -/
theorem reads_loop (inside : blocks ≠ []) (word : text ∈ ["LOOP", "WHILE", "REPEAT"])
    (later : Scene.mysql.Reads ts us
      ⟨text :: blocks, 0, Draft.clauseOpeners.contains text, false⟩ n) :
    Scene.mysql.Reads (.word text :: ts) us (ready blocks) n := by
  have other : text ≠ "END" := ne_of_mem_of_not_mem word (by decide)
  refine Reads.word language_mysql.toBody other true ?_ later
  intro w ctx met same
  have depth := Context.inside same inside
  have clause := met.clause rfl
  have first : w.followsEnd = false := met.ended
  simp only [List.mem_cons, List.not_mem_nil, or_false] at word
  change BlockGrammar.mysql.opens w ctx = true
  rcases word with rfl | rfl | rfl <;>
    simp [BlockGrammar.opens, BlockGrammar.opensControlFlow, met.text, depth, clause, first]

theorem seeks_then (v w : Var) : Seeks [] ["THEN", "WHEN", "ELSE", "END"] 0
    (comparison v w ++ .word "THEN" :: ts) (some "THEN") := by
  have ends : EndsWord [] := language_mysql.ends
  have cased : ∀ k ∈ ["THEN", "WHEN", "ELSE", "END"], Cased k := by decide
  have free : ∀ v : Var, v.text ∉ ["THEN", "WHEN", "ELSE", "END"] := by
    intro v mem
    exact v.free ((by decide : ∀ text ∈ ["THEN", "WHEN", "ELSE", "END"], text ∈ reserved) _ mem)
  refine .word ends cased (Or.inr (free v)) (.sign (by decide) ?_)
  exact .word ends cased (Or.inr (free w)) (.found ends cased (by decide))

/-- An `IF` is told from a function by the `THEN` that comes first behind it. -/
theorem reads_if (inside : blocks ≠ []) (v w : Var)
    (later : Scene.mysql.Reads (comparison v w ++ .word "THEN" :: ts) us
      ⟨"IF" :: blocks, 0, false, false⟩ n) :
    Scene.mysql.Reads (.word "IF" :: (comparison v w ++ .word "THEN" :: ts)) us (ready blocks)
      n := by
  refine Reads.word language_mysql.toBody (by decide) true ?_ later
  intro w ctx met same
  have depth := Context.inside same inside
  have clause := met.clause rfl
  have first : w.followsEnd = false := met.ended
  have reaches := met.ahead _ _ (seeks_then _ _)
  change BlockGrammar.mysql.opens w ctx = true
  simp [BlockGrammar.opens, BlockGrammar.opensControlFlow, met.text, depth, clause, first, reaches]

/-- A body does not make the `BEGIN` before it that of a transaction. -/
theorem head_statements (p : Syntax .statements) (ts : List Piece) :
    ∃ piece ∈ (p.tokens ++ .word "END" :: ts).head?,
      piece.text ∉ BlockGrammar.transactionWords := by
  have named := language_mysql.no_transaction
  cases p with
  | done => exact ⟨_, rfl, by decide⟩
  | set => exact ⟨_, rfl, by decide⟩
  | choose => exact ⟨_, rfl, by decide⟩
  | whileDo => exact ⟨_, rfl, by decide⟩
  | repeatUntil => exact ⟨_, rfl, by decide⟩
  | loop label =>
    cases label with
    | none => exact ⟨_, rfl, by decide⟩
    | some label => exact ⟨_, rfl, named label⟩
  | select => exact ⟨_, rfl, by decide⟩
  | block label => exact ⟨_, rfl, named label⟩

/-- Inside a block, any part of a body leaves the open blocks as they were. -/
theorem reads_part {part : Part} (p : Syntax part) {blocks : List String} (inside : blocks ≠ [])
    (ts : List Piece) : Scene.mysql.Reads (p.tokens ++ ts) ts (ready blocks) (ready blocks) := by
  have language := language_mysql
  have body := language.toBody
  induction p generalizing blocks ts with
  | done => exact .refl _ _ _
  | set v w rest ih =>
    simp only [Syntax.tokens, List.cons_append, List.nil_append]
    refine .plain body (by decide) <| .name language v <| .sign body (Or.inl inside) false nofun <|
      .name language w <| .sign body (Or.inl inside) true (fun _ => Or.inl rfl) ?_
    exact ih inside ts
  | choose v w inner others rest ihInner ihOthers ihRest =>
    have nested : "IF" :: blocks ≠ [] := List.cons_ne_nil _ _
    simp only [Syntax.tokens, List.append_assoc, List.cons_append]
    refine reads_if inside v w <| .compared language v w <| .plain body (by decide) ?_
    exact (ihInner nested _).trans <| (ihOthers nested _).trans <|
      .closed body inside (by decide) (ihRest inside ts)
  | whileDo v w inner rest ihInner ihRest =>
    simp only [Syntax.tokens, List.append_assoc, List.cons_append]
    refine reads_loop inside (by decide) <| .compared language v w <| .plain body (by decide) ?_
    exact (ihInner (List.cons_ne_nil _ _) _).trans <|
      .closed body inside (by decide) (ihRest inside ts)
  | repeatUntil inner v w rest ihInner ihRest =>
    simp only [Syntax.tokens, List.append_assoc, List.cons_append]
    refine reads_loop inside (by decide) <| (ihInner (List.cons_ne_nil _ _) _).trans <|
      .plain body (by decide) <| .compared language v w ?_
    exact .closed body inside (by decide) (ihRest inside ts)
  | loop label inner rest ihInner ihRest =>
    have looped : Scene.mysql.Reads (.word "LOOP" :: (inner.tokens ++ (closing "LOOP" ++
        (rest.tokens ++ ts)))) ts (ready blocks) (ready blocks) := by
      refine reads_loop inside (by decide) ?_
      exact (ihInner (List.cons_ne_nil _ _) _).trans <|
        .closed body inside (by decide) (ihRest inside ts)
    simp only [Syntax.tokens, List.append_assoc, List.cons_append]
    cases label with
    | none => exact looped
    | some label =>
      refine .name language label <| .sign body (Or.inl inside) true ?_ looped
      exact fun _ => Or.inr ⟨rfl, _, rfl⟩
  | select v w inner other rest ihInner ihOther ihRest =>
    have nested : "CASE" :: blocks ≠ [] := List.cons_ne_nil _ _
    simp only [Syntax.tokens, List.append_assoc, List.cons_append, List.nil_append]
    refine .case body rfl <| .name language v <| .plain body (by decide) <| .name language w <|
      .plain body (by decide) ?_
    exact (ihInner nested _).trans <| (ihOther nested _).trans <|
      .closed body inside (by decide) (ihRest inside ts)
  | block label inner rest ihInner ihRest =>
    simp only [Syntax.tokens, List.append_assoc, List.cons_append, List.nil_append]
    obtain ⟨piece, head, other⟩ := head_statements inner
      (.word label.text :: .sign ';' :: (rest.tokens ++ ts))
    refine .name language label <| .sign body (Or.inl inside) true
      (fun _ => Or.inr ⟨rfl, _, rfl⟩) <| .begin body head other ?_
    exact (ihInner (List.cons_ne_nil _ _) _).trans <|
      .ending language label (fun _ _ => rfl) (Or.inl inside) (ihRest inside ts)
  | elseIf v w inner others ihInner ihOthers =>
    simp only [Syntax.tokens, List.append_assoc, List.cons_append]
    refine .plain body (by decide) <| .compared language v w <| .plain body (by decide) ?_
    exact (ihInner inside _).trans (ihOthers inside ts)
  | last other ih => exact ih inside ts
  | nothing => exact .refl _ _ _
  | orElse inner ih => exact .plain body (by decide) (ih inside ts)

/-- From behind its `CREATE` on, a procedure is read to its last semicolon, and no block is open
there. -/
theorem reads_tokens (p : StoredProgram) : Scene.mysql.Reads p.tokens.tail [.sign ';']
    ⟨[], 0, false, false⟩ ⟨[], 0, false, true⟩ := by
  have language := language_mysql
  have body := language.toBody
  obtain ⟨piece, head, other⟩ := head_statements p.body [.sign ';']
  simp only [tokens, List.cons_append, List.nil_append, List.tail_cons]
  refine .plain body (by decide) <| .name language p.name <|
    .sign body (Or.inr (Or.inl (by decide))) false nofun <|
    .sign body (Or.inr (Or.inl (by decide))) false nofun <| .begin body head other ?_
  refine (reads_part p.body (List.cons_ne_nil _ _) _).trans ?_
  exact .close body rfl (fun _ _ => rfl) rfl (fun listed => absurd listed (by decide))
    (.refl _ _ _)

/-- Blanks are all that comes behind a last semicolon, so nothing does. -/
theorem split_last {text piece gap : List Char} (h : text ++ [';'] = piece ++ ';' :: gap)
    (blank : ∀ c ∈ gap, isBlank c = true) : text = piece ∧ gap = [] := by
  rcases List.eq_nil_or_concat gap with rfl | ⟨gap, c, rfl⟩
  · exact ⟨List.append_inj_left' h rfl, rfl⟩
  · rw [List.concat_eq_append, ← List.cons_append, ← List.append_assoc] at h
    have last : [';'] = [c] := List.append_inj_right' h rfl
    cases last
    exact absurd (blank ';' (by simp)) (by decide)

/-- A procedure is one statement, up to its last semicolon. -/
theorem split_storedProgram (p : StoredProgram) (text : List Char)
    (laid : Laid [] p.tokens (text ++ [';'])) :
    split .mysql (String.ofList (text ++ [';'])) =
        .ok [⟨1, 0, byteSize (trimEnd text), String.ofList (trimEnd text), .semicolon⟩] ∧
      (Session.final .mysql .semicolon (String.ofList (text ++ [';']))).context.blocks = [] ∧
      (Session.final .mysql .semicolon (String.ofList (text ++ [';']))).warnings = [] := by
  obtain ⟨t, e, passes, start, -, stands⟩ := stands_create (Or.inl rfl) language_mysql.ends laid
  obtain ⟨u, x, later, start', last⟩ := reads_tokens p t e stands
  obtain ⟨gap, rest, ahead, -, blank, ⟨⟩⟩ := last.laid.of_sign
  have ahead : u.cursor.ahead = ';' :: gap := by
    rw [ahead]
    exact congrArg _ (List.append_nil gap)
  have whole := Session.passes_trans passes later
  obtain ⟨piece, split, -⟩ := Session.passes_cut whole
  have script : (String.ofList (text ++ [';'])).toList = text ++ [';'] := String.toList_ofList
  obtain ⟨rfl, rfl⟩ := split_last (script.symm.trans (split.trans (by rw [ahead]))) blank
  obtain ⟨alone, blocks, warnings⟩ := Session.splitFrom_of_semicolon whole
    (start'.trans (start.trans (congrArg _ script.symm))) script ahead last.blocks last.parens
    last.delimiter
  exact ⟨alone, blocks, warnings.trans last.silent⟩

/-- A labelled loop around an `IF` around a `CASE`. -/
def nested : StoredProgram :=
  let p : Var := ⟨"P", by decide, by decide⟩
  let v : Var := ⟨"V_1", by decide, by decide⟩
  ⟨p, .loop (some p) (.choose v p (.select v p .done .nothing .done) (.last .nothing) .done) .done⟩

/-- The same without blanks but between two words. -/
def nestedText : String :=
  "CREATE PROCEDURE P()BEGIN P:LOOP IF V_1>P THEN CASE V_1 WHEN P THEN END CASE;" ++
  "END IF;END LOOP;END"

theorem split_storedProgram_nested :
    Laid [] nested.tokens (nestedText.toList ++ [';']) ∧
      split .mysql (String.ofList (nestedText.toList ++ [';'])) =
        .ok [⟨1, 0, 96, nestedText, .semicolon⟩] ∧
      (Session.final .mysql .semicolon
        (String.ofList (nestedText.toList ++ [';']))).context.blocks = [] ∧
      (Session.final .mysql .semicolon
        (String.ofList (nestedText.toList ++ [';']))).warnings = [] := by
  have written : compact nested.tokens = nestedText.toList ++ [';'] := by decide +kernel
  have laid : Laid [] nested.tokens (nestedText.toList ++ [';']) :=
    written ▸ laid_compact (by decide +kernel)
  have trimmed : trimEnd nestedText.toList = nestedText.toList := by decide +kernel
  have size : nestedText.utf8ByteSize = 96 := by decide +kernel
  have whole := split_storedProgram nested _ laid
  rw [trimmed, byteSize_eq_utf8ByteSize, String.ofList_toList, size] at whole
  exact ⟨laid, whole⟩

end StoredProgram

end SqlBoundary
