import SqlBoundary.Proofs.Phrases

/-!
# Package bodies of Oracle

A package body is kept whole, whatever its members. A subprogram opens a block with its keyword
if it has a body, and the `BEGIN` of that body another; one `END` closes both, so that the blocks
before and after a member are the same, to any depth.
-/

namespace SqlBoundary

open Text Lexeme Scene

namespace PackageBody

/-- The words that are no names in these programs. -/
def reserved : List String :=
  ["CREATE", "OR", "REPLACE", "PACKAGE", "BODY", "AS", "IS", "BEGIN", "END", "NUMBER", "PROCEDURE",
   "FUNCTION", "RETURN", "IF", "THEN", "ELSE", "LOOP", "WHILE", "CASE", "WHEN", "TRANSACTION",
   "TRAN", "WORK", "DEFERRED", "IMMEDIATE", "EXCLUSIVE", "DISTRIBUTED", "ISOLATION", "READ",
   "TRIGGER", "REPEAT"]

abbrev Var := Name reserved

inductive Statements
  | done
  | assign (v w : Var) (rest : Statements)
  | choose (v w : Var) (body rest : Statements)
  | chooseElse (v w : Var) (body other rest : Statements)
  | loop (body rest : Statements)
  | whileLoop (v w : Var) (body rest : Statements)
  | select (v w : Var) (body rest : Statements)

/-- How a subprogram is called, and with which parameters. -/
inductive Header
  | procedure (name : Var) (params : List Var)
  | function (name : Var)

/-- What a package or a subprogram declares: variables, and subprograms without a body and with
one. -/
inductive Members
  | done
  | number (v : Var) (rest : Members)
  | forward (header : Header) (rest : Members)
  | define (header : Header) (locals : Members) (body : Statements) (rest : Members)

end PackageBody

open PackageBody

/-- The package body with this name and these members. -/
structure PackageBody where
  name : Var
  /-- `AS` or `IS`. -/
  announcer : String
  announces : announcer ∈ ["AS", "IS"]
  members : Members
  init : Option Statements

namespace PackageBody

def Statements.tokens : Statements → List Piece
  | done => []
  | assign v w rest =>
    [.word v.text, .sign ':', .sign '=', .word w.text, .sign ';'] ++ rest.tokens
  | choose v w body rest =>
    .word "IF" :: comparison v w ++ .word "THEN" :: body.tokens ++ closing "IF" ++ rest.tokens
  | chooseElse v w body other rest =>
    .word "IF" :: comparison v w ++ .word "THEN" :: body.tokens ++ .word "ELSE" :: other.tokens ++
      closing "IF" ++ rest.tokens
  | loop body rest => .word "LOOP" :: body.tokens ++ closing "LOOP" ++ rest.tokens
  | whileLoop v w body rest =>
    .word "WHILE" :: comparison v w ++ .word "LOOP" :: body.tokens ++ closing "LOOP" ++ rest.tokens
  | select v w body rest =>
    [.word "CASE", .word v.text, .word "WHEN", .word w.text, .word "THEN"] ++ body.tokens ++
      closing "CASE" ++ rest.tokens

def parameter (v : Var) : List Piece := [.word v.text, .word "NUMBER"]

def parameters : List Var → List Piece
  | [] => []
  | v :: vs => .sign '(' :: parameter v ++ vs.flatMap (.sign ',' :: parameter ·) ++ [.sign ')']

namespace Header

def keyword : Header → String
  | procedure _ _ => "PROCEDURE"
  | function _ => "FUNCTION"

def name : Header → Var
  | procedure name _ => name
  | function name => name

/-- What stands behind the keyword and the name. -/
def signature : Header → List Piece
  | procedure _ params => parameters params
  | function _ => [.word "RETURN", .word "NUMBER"]

def tokens (h : Header) : List Piece := .word h.keyword :: .word h.name.text :: h.signature

end Header

def Members.tokens : Members → List Piece
  | done => []
  | number v rest => parameter v ++ .sign ';' :: rest.tokens
  | forward header rest => header.tokens ++ .sign ';' :: rest.tokens
  | define header locals body rest =>
    header.tokens ++ .word "IS" :: locals.tokens ++ .word "BEGIN" :: body.tokens ++
      closing header.name.text ++ rest.tokens

def initialization : Option Statements → List Piece
  | none => []
  | some body => .word "BEGIN" :: body.tokens

/-- The tokens from the word `BODY` on. -/
def rest (p : PackageBody) : List Piece :=
  [.word "BODY", .word p.name.text, .word p.announcer] ++ p.members.tokens ++
    initialization p.init ++ closing p.name.text

def tokens (p : PackageBody) : List Piece :=
  [.word "CREATE", .word "OR", .word "REPLACE", .word "PACKAGE"] ++ p.rest

end PackageBody

/-- The scene of a package body with this text after it. -/
def Scene.oracle (after : List Char) : Scene :=
  ⟨.oracle, .slash, ["CREATE", "OR", "REPLACE", "PACKAGE"], after⟩

namespace PackageBody

variable {ts us : List Piece} {blocks outer : List String} {m n : Mode} {text unit : String}
variable {after : List Char} {r : Option String}

/-- Inside these blocks, before a declaration or the word that ends it. -/
def within (blocks : List String) : Mode := ⟨blocks, 0, false, false⟩

theorem language_oracle (ends : EndsWord after) : (Scene.oracle after).Language reserved where
  procedural := Or.inr rfl
  ordinary := Or.inr rfl
  begun := by simp [Scene.oracle]
  ends := ends
  settled := fun _ => rfl
  openers := by
    change ∀ text ∈ "END" :: BlockGrammar.oracle.openers, text ∈ reserved
    decide
  kinds := by decide
  transactions := by decide

theorem reads_plain (ends : EndsWord after)
    (other : text ∉ "END" :: BlockGrammar.oracle.openers)
    (later : (Scene.oracle after).Reads ts us
      ⟨m.blocks, m.parens, Draft.clauseOpeners.contains text, false⟩ n) :
    (Scene.oracle after).Reads (.word text :: ts) us m n :=
  .plain (language_oracle ends).toBody other later

theorem reads_if (ends : EndsWord after) (inside : blocks ≠ [])
    (later : (Scene.oracle after).Reads ts us ⟨"IF" :: blocks, 0, false, false⟩ n) :
    (Scene.oracle after).Reads (.word "IF" :: ts) us (ready blocks) n := by
  refine .word (language_oracle ends).toBody (by decide) true ?_ later
  intro w ctx met same
  have depth := Context.inside same inside
  have clause := met.clause rfl
  have first : w.followsEnd = false := met.ended
  change BlockGrammar.oracle.opens w ctx = true
  simp [BlockGrammar.opens, BlockGrammar.opensUnit, met.text, depth, clause, first]

theorem reads_loop (ends : EndsWord after) (fresh : m.ended = false)
    (later : (Scene.oracle after).Reads ts us ⟨"LOOP" :: m.blocks, m.parens, true, false⟩ n) :
    (Scene.oracle after).Reads (.word "LOOP" :: ts) us m n := by
  refine .word (language_oracle ends).toBody (by decide) true ?_ later
  rintro w ctx met -
  have first : w.followsEnd = false := met.ended.trans fresh
  change BlockGrammar.oracle.opens w ctx = true
  simp [BlockGrammar.opens, BlockGrammar.opensUnit, met.text, first]

/-- Inside a block, statements leave the open blocks as they were. -/
theorem reads_statements (ends : EndsWord after) (p : Statements) (inside : blocks ≠ [])
    (ts : List Piece) :
    (Scene.oracle after).Reads (p.tokens ++ ts) ts (ready blocks) (ready blocks) := by
  have language := language_oracle ends
  have body := language.toBody
  induction p generalizing blocks ts with
  | done => exact .refl _ _ _
  | assign v w rest ih =>
    simp only [Statements.tokens, List.cons_append, List.nil_append]
    refine .name language v <| .sign body (Or.inl inside) false nofun <|
      .sign body (Or.inl inside) false nofun <| .name language w <|
      .sign body (Or.inl inside) true (fun _ => Or.inl rfl) ?_
    exact ih inside ts
  | choose v w inner rest ihInner ihRest =>
    simp only [Statements.tokens, List.append_assoc, List.cons_append]
    refine reads_if ends inside <| .compared language v w <| reads_plain ends (by decide) ?_
    exact (ihInner (List.cons_ne_nil _ _) _).trans <|
      .closed body inside (by decide) (ihRest inside ts)
  | chooseElse v w inner other rest ihInner ihOther ihRest =>
    have nested : "IF" :: blocks ≠ [] := List.cons_ne_nil _ _
    simp only [Statements.tokens, List.append_assoc, List.cons_append]
    refine reads_if ends inside <| .compared language v w <| reads_plain ends (by decide) ?_
    refine (ihInner nested _).trans <| reads_plain ends (by decide) ?_
    exact (ihOther nested _).trans <| .closed body inside (by decide) (ihRest inside ts)
  | loop inner rest ihInner ihRest =>
    simp only [Statements.tokens, List.append_assoc, List.cons_append]
    refine reads_loop ends rfl ?_
    exact (ihInner (List.cons_ne_nil _ _) _).trans <|
      .closed body inside (by decide) (ihRest inside ts)
  | whileLoop v w inner rest ihInner ihRest =>
    simp only [Statements.tokens, List.append_assoc, List.cons_append]
    refine reads_plain ends (by decide) <| .compared language v w <| reads_loop ends rfl ?_
    exact (ihInner (List.cons_ne_nil _ _) _).trans <|
      .closed body inside (by decide) (ihRest inside ts)
  | select v w inner rest ihInner ihRest =>
    simp only [Statements.tokens, List.append_assoc, List.cons_append, List.nil_append]
    refine .case body rfl <| .name language v <| reads_plain ends (by decide) <| .name language w <|
      reads_plain ends (by decide) ?_
    exact (ihInner (List.cons_ne_nil _ _) _).trans <|
      .closed body inside (by decide) (ihRest inside ts)

/-- Statements do not make the `BEGIN` before them that of a transaction. -/
theorem head_statements (p : Statements) (ts : List Piece) :
    ∃ piece ∈ (p.tokens ++ .word "END" :: ts).head?,
      piece.text ∉ BlockGrammar.transactionWords := by
  have ends : EndsWord [] := nofun
  cases p with
  | assign v => exact ⟨_, rfl, (language_oracle ends).no_transaction v⟩
  | done => exact ⟨_, rfl, by decide⟩
  | choose => exact ⟨_, rfl, by decide⟩
  | chooseElse => exact ⟨_, rfl, by decide⟩
  | loop => exact ⟨_, rfl, by decide⟩
  | whileLoop => exact ⟨_, rfl, by decide⟩
  | select => exact ⟨_, rfl, by decide⟩

/-- The statements of a body share their `END` with the declarations before them. -/
theorem reads_body (ends : EndsWord after) (p : Statements) (name : Var)
    (declares : unit ∈ BlockGrammar.declarationBlocks)
    (later : (Scene.oracle after).Reads ts us (ready outer) n) :
    (Scene.oracle after).Reads (.word "BEGIN" :: (p.tokens ++ (closing name.text ++ ts))) us
      (within (unit :: outer)) n := by
  have language := language_oracle ends
  obtain ⟨piece, head, other⟩ := head_statements p (.word name.text :: .sign ';' :: ts)
  have shares : ∀ ctx : Context, ctx.blocks = unit :: outer →
      (if (Scene.oracle after).dialect.blocks.closesEnclosing "BEGIN" ctx
        then (unit :: outer).tail else unit :: outer) = outer := by
    intro ctx same
    have both : BlockGrammar.oracle.closesEnclosing "BEGIN" ctx = true := by
      simp [BlockGrammar.closesEnclosing, Context.innermost, same, declares]
    change (if BlockGrammar.oracle.closesEnclosing "BEGIN" ctx then _ else _) = _
    rw [if_pos both]
    rfl
  refine .begin language.toBody head other ?_
  refine (reads_statements ends p (List.cons_ne_nil _ _) _).trans ?_
  exact .ending language name shares (Or.inr rfl) later

theorem cased_units : ∀ k ∈ ["IS", "AS"], Cased k := by decide

theorem seeks_name (ends : EndsWord after) (v : Var) {depth : Nat}
    (later : Seeks after ["IS", "AS"] depth ts r) :
    Seeks after ["IS", "AS"] depth (.word v.text :: ts) r := by
  refine .word ends cased_units (Or.inr ?_) later
  exact fun mem => v.free ((by decide : ∀ text ∈ ["IS", "AS"], text ∈ reserved) v.text mem)

theorem seeks_parameter (ends : EndsWord after) (v : Var) {depth : Nat}
    (later : Seeks after ["IS", "AS"] depth ts r) :
    Seeks after ["IS", "AS"] depth (parameter v ++ ts) r :=
  seeks_name ends v <| .word ends cased_units (Or.inr (by decide)) later

/-- The search for the body goes on behind the parameters. -/
theorem seeks_parameters (ends : EndsWord after) (params : List Var)
    (later : Seeks after ["IS", "AS"] 0 ts r) :
    Seeks after ["IS", "AS"] 0 (parameters params ++ ts) r := by
  cases params with
  | nil => exact later
  | cons v vs =>
    have more : Seeks after ["IS", "AS"] 1
        (vs.flatMap (.sign ',' :: parameter ·) ++ .sign ')' :: ts) r := by
      induction vs with
      | nil => exact .closes later
      | cons v vs ih =>
        simp only [List.flatMap_cons, List.cons_append, List.append_assoc]
        exact .comma (seeks_parameter ends v ih)
    simp only [parameters, List.cons_append, List.append_assoc, List.nil_append]
    exact .opens (seeks_parameter ends v more)

theorem seeks_header (ends : EndsWord after) (header : Header)
    (later : Seeks after ["IS", "AS"] 0 ts r) :
    Seeks after ["IS", "AS"] 0 (.word header.name.text :: (header.signature ++ ts)) r := by
  refine seeks_name ends header.name ?_
  cases header with
  | procedure name params => exact seeks_parameters ends params later
  | function name =>
    exact .word ends cased_units (Or.inr (by decide)) <|
      .word ends cased_units (Or.inr (by decide)) later

theorem reads_parameter (ends : EndsWord after) (v : Var)
    (later : (Scene.oracle after).Reads ts us ⟨m.blocks, m.parens, false, false⟩ n) :
    (Scene.oracle after).Reads (parameter v ++ ts) us m n :=
  .name (language_oracle ends) v <| reads_plain ends (by decide) later

theorem reads_parameters (ends : EndsWord after) (params : List Var)
    (later : (Scene.oracle after).Reads ts us (within blocks) n) :
    (Scene.oracle after).Reads (parameters params ++ ts) us (within blocks) n := by
  have body := (language_oracle ends).toBody
  cases params with
  | nil => exact later
  | cons v vs =>
    have more : (Scene.oracle after).Reads
        (vs.flatMap (.sign ',' :: parameter ·) ++ .sign ')' :: ts) us
        ⟨blocks, 1, false, false⟩ n := by
      induction vs with
      | nil =>
        refine .sign body (Or.inr (Or.inr rfl)) false nofun ?_
        rw [parensAfter_last]
        exact later
      | cons v vs ih =>
        simp only [List.flatMap_cons, List.cons_append, List.append_assoc]
        exact .sign body (Or.inr (Or.inr rfl)) false nofun (reads_parameter ends v ih)
    simp only [parameters, List.cons_append, List.append_assoc, List.nil_append]
    exact .sign body (Or.inr (Or.inr rfl)) false nofun (reads_parameter ends v more)

/-- The keyword opens a block if the subprogram has a body. -/
theorem reads_header (ends : EndsWord after) (header : Header)
    (declares : unit ∈ BlockGrammar.declarationBlocks)
    (seeks : Seeks after ["IS", "AS"] 0 ts r)
    (later : (Scene.oracle after).Reads ts us
      (within (if r.isSome then header.keyword :: unit :: outer else unit :: outer)) n) :
    (Scene.oracle after).Reads (header.tokens ++ ts) us (within (unit :: outer)) n := by
  have language := language_oracle ends
  have body := language.toBody
  have found := seeks_header ends header seeks
  have other : header.keyword ≠ "END" := by cases header <;> simp [Header.keyword]
  have member : ∀ w ctx, (Scene.oracle after).Met header.keyword
      (.word header.name.text :: (header.signature ++ ts)) (within (unit :: outer)) w →
      ctx.blocks = unit :: outer → BlockGrammar.oracle.opens w ctx = r.isSome := by
    intro w ctx met same
    have reaches := met.ahead _ _ found
    have text := met.text
    cases header <;>
      simp_all [BlockGrammar.opens, BlockGrammar.opensCommon, BlockGrammar.opensUnit,
        Header.keyword, Context.innermost]
  refine .word body other r.isSome member ?_
  refine .forget <| .name language header.name ?_
  cases header with
  | procedure name params => exact reads_parameters ends params later
  | function name => exact reads_plain ends (by decide) <| reads_plain ends (by decide) later

/-- The `IS` of a subprogram opens nothing. -/
theorem reads_is (ends : EndsWord after) (inside : m.blocks ≠ [])
    (later : (Scene.oracle after).Reads ts us ⟨m.blocks, m.parens, false, false⟩ n) :
    (Scene.oracle after).Reads (.word "IS" :: ts) us m n := by
  refine .word (language_oracle ends).toBody (by decide) false ?_ later
  intro w ctx met same
  have depth : (ctx.blockDepth == 0) = false := by
    simpa using Context.inside same inside
  change BlockGrammar.oracle.opens w ctx = false
  simp [BlockGrammar.opens, BlockGrammar.opensCommon, BlockGrammar.opensUnit, met.text, depth]

/-- Members leave the open blocks as they were. -/
theorem reads_members (ends : EndsWord after) (p : Members)
    (declares : unit ∈ BlockGrammar.declarationBlocks) (ts : List Piece) :
    (Scene.oracle after).Reads (p.tokens ++ ts) ts (within (unit :: outer))
      (within (unit :: outer)) := by
  have body := (language_oracle ends).toBody
  induction p generalizing unit outer ts with
  | done => exact .refl _ _ _
  | number v rest ih =>
    simp only [Members.tokens, List.append_assoc, List.cons_append]
    refine reads_parameter ends v <| .sign body (Or.inr (Or.inr rfl)) false nofun ?_
    exact ih declares ts
  | forward header rest ih =>
    simp only [Members.tokens, List.append_assoc, List.cons_append]
    refine reads_header ends header declares .stop ?_
    exact .sign body (Or.inr (Or.inr rfl)) false nofun (ih declares ts)
  | define header locals inner rest ihLocals ihRest =>
    have unit' : header.keyword ∈ BlockGrammar.declarationBlocks := by
      cases header <;> simp [Header.keyword, BlockGrammar.declarationBlocks]
    simp only [Members.tokens, List.append_assoc, List.cons_append]
    refine reads_header ends header declares (.found ends cased_units (by decide)) ?_
    refine reads_is ends (List.cons_ne_nil _ _) <| (ihLocals unit' _).trans ?_
    exact reads_body ends inner header.name unit' (.forget (ihRest declares ts))

/-- The package itself is the block that its `AS` or `IS` opens. -/
theorem reads_announcer (ends : EndsWord after) (announces : text ∈ ["AS", "IS"])
    (later : (Scene.oracle after).Reads ts us (within [text]) n) :
    (Scene.oracle after).Reads (.word text :: ts) us (within []) n := by
  have other : text ≠ "END" := ne_of_mem_of_not_mem announces (by decide)
  have clause : Draft.clauseOpeners.contains text = false := by
    simp only [List.mem_cons, List.not_mem_nil, or_false] at announces
    rcases announces with rfl | rfl <;> decide
  refine .word (language_oracle ends).toBody other true ?_ (.forget later)
  intro w ctx met same
  have package : "PACKAGE" ∈ w.leading :=
    met.lead.subset (by decide : "PACKAGE" ∈ ["CREATE", "OR", "REPLACE", "PACKAGE"])
  have depth : (ctx.blockDepth == 0) = true := by
    simp [Context.blockDepth, same, within]
  have text := met.text
  simp only [List.mem_cons, List.not_mem_nil, or_false] at announces
  change BlockGrammar.oracle.opens w ctx = true
  rcases announces with rfl | rfl <;>
    simp [BlockGrammar.opens, BlockGrammar.opensUnit, BlockGrammar.declaresMembers, text, depth,
      package]

/-- From behind its `PACKAGE` on, a package body is read to its end, and no block is open there. -/
theorem reads_rest (ends : EndsWord after) (p : PackageBody) :
    (Scene.oracle after).Reads p.rest [] (within []) (ready []) := by
  have language := language_oracle ends
  have declares : p.announcer ∈ BlockGrammar.declarationBlocks :=
    (by decide : ∀ text ∈ ["AS", "IS"], text ∈ BlockGrammar.declarationBlocks) _ p.announces
  simp only [rest, List.append_assoc, List.cons_append, List.nil_append]
  refine reads_plain ends (by decide) <| .name language p.name <|
    reads_announcer ends p.announces <| (reads_members ends p.members declares _).trans ?_
  rw [← List.append_nil (closing p.name.text)]
  cases p.init with
  | none =>
    have shares : ∀ ctx : Context, ctx.blocks = [] →
        (if (Scene.oracle after).dialect.blocks.closesEnclosing p.announcer ctx
          then ([] : List String).tail else []) = [] := fun _ _ => ite_self _
    exact .ending language p.name shares (Or.inr rfl) (.refl _ _ _)
  | some inner => exact reads_body ends inner p.name declares (.refl _ _ _)

/-- Behind `CREATE` or another modifier, a further word of the head is added to the draft. -/
theorem stands_head {sc : Scene} {s : Session} {d : Draft} {words : List String} (fit : sc.Fit)
    (grammar : sc.dialect.blocks = .oracle) (h : sc.Stands (.word text :: ts) m s d)
    (leading : d.leading = words) (few : words.length < Draft.leadingWords)
    (other : text ∉ "END" :: BlockGrammar.oracle.openers) :
    ∃ t e, Session.Passes s (some d) t (some e) ∧ e.start = d.start ∧
      e.leading = words ++ [text] ∧
      Stands { sc with delimiter := (BlockGrammar.oracle.statementDelimiter?
        (words ++ [text])).getD sc.delimiter } ts ⟨m.blocks, m.parens, false, false⟩ t e := by
  rw [List.mem_cons, not_or] at other
  have closed : ∀ w ctx, sc.Met text ts m w → ctx.blocks = m.blocks →
      sc.dialect.blocks.opens w ctx = false := by
    rintro w ctx met -
    rw [grammar]
    exact BlockGrammar.opens_other (met.text ▸ other.2)
  obtain ⟨t, passes, stands⟩ := h.word fit other.1 closed
  have asked : d.asks sc.dialect.blocks text =
      BlockGrammar.oracle.statementDelimiter? (words ++ [text]) := by
    rw [Draft.asks, leading, if_pos few, grammar]
  have ended : (text == "END") = false := beq_eq_false_iff_ne.mpr other.1
  rw [asked, ended] at stands
  refine ⟨t, _, passes, rfl, ?_, { stands with clause := Bool.noConfusion }⟩
  simp only [Draft.afterWord, leading, if_pos few]

/-- The words before `BODY` make a line with a slash the delimiter. -/
theorem stands_rest (p : PackageBody) {cs : List Char} (ends : EndsWord after)
    (laid : Laid after p.tokens cs) : ∃ t e,
      Session.Passes (.ofScript .oracle .semicolon (String.ofList cs)) none t (some e) ∧
      e.start = .start cs ∧ (Scene.oracle after).Stands p.rest (within []) t e := by
  have fit : Scene.Fit ⟨.oracle, .semicolon, ["CREATE"], after⟩ :=
    ⟨Or.inr rfl, Or.inl rfl, List.cons_ne_nil _ _, ends⟩
  obtain ⟨s, d, create, start, leading, stands⟩ := stands_create (Or.inr rfl) ends laid
  obtain ⟨s₁, d₁, or, start₁, leading, stands⟩ :=
    stands_head fit rfl stands leading (by decide) (by decide)
  obtain ⟨s₂, d₂, replace, start₂, leading, stands⟩ :=
    stands_head fit rfl stands leading (by decide) (by decide)
  obtain ⟨t, e, package, start₃, leading, stands⟩ :=
    stands_head fit rfl stands leading (by decide) (by decide)
  refine ⟨t, e, Session.passes_trans create <| Session.passes_trans or <|
    Session.passes_trans replace package, ?_, ?_⟩
  · rw [start₃, start₂, start₁, start]
  · exact { stands with lead := leading ▸ List.prefix_rfl }

/-- Outside blocks, a line that holds only a slash ends the statement. -/
theorem delimiterLength?_slash {u : Session} {piece before trail : List Char}
    (active : u.context.delimiter = .slash) (outside : u.context.blocks = [])
    (ahead : u.cursor.ahead = '/' :: trail)
    (place : u.cursor = .between (piece ++ '\n' :: before) u.cursor.ahead)
    (blank : ∀ c ∈ before, isBlank c = true) (blank' : ∀ c ∈ trail, isBlank c = true) :
    u.delimiterLength? = some (lineLength ('/' :: trail)) := by
  have fresh : u.cursor.content = false := by
    rw [place]
    change ((piece ++ '\n' :: before).reverse.takeWhile (· != '\n')).any (!isBlank ·) = false
    rw [List.any_eq_false]
    intro c mem
    have here : c ∈ before := by
      rw [List.reverse_append, List.reverse_cons, List.append_assoc, List.takeWhile_append] at mem
      split at mem
      · simpa using mem
      · exact List.mem_reverse.mp ((List.takeWhile_prefix _).subset mem)
    simp [blank c here]
  have fills : Delimiter.slash.fillsLine ('/' :: trail) = true := by
    have line : currentLine ('/' :: trail) = ['/'] ++ currentLine trail := rfl
    have rest : ∀ c ∈ currentLine trail, isBlank c = true :=
      fun c mem => blank' c ((List.takeWhile_prefix _).subset mem)
    rw [Delimiter.fillsLine, line, trimEnd_append rest]
    decide
  have stands : u.cursor.atLineOf .slash = true := by
    rw [Cursor.atLineOf, fresh, ahead, fills]
    rfl
  have alone : Delimiter.slash.aloneOnLine = true := rfl
  simp [Session.delimiterLength?, Context.blockDepth, outside, active, alone, stands, ahead]

/-- A package body is one statement, up to the semicolon behind its name. -/
theorem split_packageBody (p : PackageBody) (text before trail : List Char)
    (blank : ∀ c ∈ before ++ trail, isBlank c = true) (laid : Laid [] p.tokens text) :
    split .oracle (String.ofList (text ++ '\n' :: (before ++ '/' :: trail))) =
        .ok [⟨1, 0, byteSize (trimEnd text), String.ofList (trimEnd text), .slash⟩] ∧
      (Session.final .oracle .semicolon
        (String.ofList (text ++ '\n' :: (before ++ '/' :: trail)))).context.blocks = [] ∧
      (Session.final .oracle .semicolon
        (String.ofList (text ++ '\n' :: (before ++ '/' :: trail)))).warnings = [] := by
  have ends : EndsWord ('\n' :: (before ++ '/' :: trail)) := by
    rintro c ⟨⟩
    exact Or.inl isBlank_lineFeed
  have blankBefore : ∀ c ∈ '\n' :: before, isBlank c = true := by
    rintro c (_ | ⟨_, mem⟩)
    · exact isBlank_lineFeed
    · exact blank c (List.mem_append_left _ mem)
  have blankTrail : ∀ c ∈ trail, isBlank c = true :=
    fun c mem => blank c (List.mem_append_right _ mem)
  obtain ⟨s, d, head, start, stands⟩ := stands_rest p ends (laid.append _)
  obtain ⟨t, x, later, start', last⟩ := reads_rest ends p s d stands
  have ahead : t.cursor.ahead = ('\n' :: before) ++ '/' :: trail := last.laid.of_nil
  let u := t.skip ('\n' :: before).length
  have whole : Session.Passes _ none u (some x) := Session.passes_trans head <|
    Session.passes_trans later (Session.passes_blanks blankBefore ahead)
  have slash : u.cursor.ahead = '/' :: trail := by
    rw [Session.skip_cursor, Cursor.skip_ahead, ahead, List.drop_left]
  obtain ⟨piece, split, moves⟩ := Session.passes_cut whole
  have piece' : piece = text ++ '\n' :: before := by
    rw [slash] at split
    refine List.append_cancel_right (split.symm.trans (String.toList_ofList.trans ?_))
    rw [List.append_assoc, List.cons_append]
  subst piece'
  have active : u.delimiterLength? = some (lineLength ('/' :: trail)) :=
    delimiterLength?_slash last.delimiter last.blocks slash (@moves [] rfl)
      (fun c mem => blankBefore c (List.mem_cons_of_mem _ mem)) blankTrail
  have nothing : ∀ c ∈ (u.skip (lineLength ('/' :: trail))).restored.cursor.ahead,
      isBlank c = true := by
    intro c mem
    change c ∈ (u.cursor.skip _).ahead at mem
    have line : lineLength ('/' :: trail) = lineLength trail + 1 := rfl
    rw [Cursor.skip_ahead, slash, line, List.drop_succ_cons] at mem
    exact blankTrail c (List.mem_of_mem_drop mem)
  obtain ⟨alone, blocks, warnings⟩ := Session.splitFrom_of_single whole
    (start'.trans (start.trans (congrArg _ String.toList_ofList.symm))) split
    (Session.pass_of_delimiter slash (by decide) active) nothing
  have delimiter : u.context.delimiter = .slash := last.delimiter
  rw [delimiter, trimEnd_append blankBefore] at alone
  exact ⟨alone, blocks, warnings.trans last.silent⟩

/-- A procedure with a parameter, in it a function with a loop, and an initialization. -/
def nested : PackageBody :=
  let a : Var := ⟨"A", by decide, by decide⟩
  let f : Var := ⟨"F_1", by decide, by decide⟩
  ⟨a, "AS", by decide, .forward (.function f) <| .define (.procedure a [f])
    (.define (.function f) .done (.loop .done .done) .done) .done .done, some (.assign a f .done)⟩

/-- The same without blanks but between two words. -/
def nestedText : String :=
  "CREATE OR REPLACE PACKAGE BODY A AS FUNCTION F_1 RETURN NUMBER;PROCEDURE A(F_1 NUMBER)" ++
  "IS FUNCTION F_1 RETURN NUMBER IS BEGIN LOOP END LOOP;END F_1;BEGIN END A;BEGIN A:=F_1;END A;"

theorem split_packageBody_nested :
    (∀ c ∈ [' '] ++ ['\n'], isBlank c = true) ∧ Laid [] nested.tokens nestedText.toList ∧
      split .oracle (String.ofList (nestedText.toList ++ '\n' :: ([' '] ++ '/' :: ['\n']))) =
        .ok [⟨1, 0, 178, nestedText, .slash⟩] ∧
      (Session.final .oracle .semicolon (String.ofList
        (nestedText.toList ++ '\n' :: ([' '] ++ '/' :: ['\n'])))).context.blocks = [] ∧
      (Session.final .oracle .semicolon (String.ofList
        (nestedText.toList ++ '\n' :: ([' '] ++ '/' :: ['\n'])))).warnings = [] := by
  have blank : ∀ c ∈ [' '] ++ ['\n'], isBlank c = true := by decide
  have written : nestedText = String.ofList (compact nested.tokens) := by decide +kernel
  have chars : nestedText.toList = compact nested.tokens := by
    rw [written, String.toList_ofList]
  have laid : Laid [] nested.tokens nestedText.toList := by
    rw [chars]
    exact laid_compact (by decide +kernel)
  have trimmed : trimEnd nestedText.toList = nestedText.toList := by
    rw [chars]
    decide +kernel
  have size : nestedText.utf8ByteSize = 178 := by decide +kernel
  have whole := split_packageBody nested _ _ _ blank laid
  rw [trimmed, byteSize_eq_utf8ByteSize, String.ofList_toList, size] at whole
  exact ⟨blank, laid, whole⟩

end PackageBody

end SqlBoundary
