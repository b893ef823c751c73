import SqlBoundary.Proofs.Phrases
import SqlBoundary.Proofs.Plain

/-!
# Reading MySQL text inside a statement

Words of any letters, and characters that are read by themselves, as they follow one another in a
text. `Goes` says how the reading changes over some text, whatever comes behind it: which blocks
and parentheses are open, whether a statement may begin and whether the last word was an `END`.
There is one rule for blanks, one for a sign, one for a word and one for an `END`.
-/

namespace SqlBoundary

open Text Lexeme

/-- A word of a MySQL statement, in any case. -/
structure Identifier (cs : List Char) : Prop where
  first : ∀ c ∈ cs.head?, Dialect.mysql.startsWord c = true
  inside : ∀ c ∈ cs, Dialect.mysql.isWordChar c = true
  nonempty : cs ≠ []

instance (cs : List Char) : Decidable (Identifier cs) :=
  decidable_of_iff ((∀ c ∈ cs.head?, Dialect.mysql.startsWord c = true) ∧
      (∀ c ∈ cs, Dialect.mysql.isWordChar c = true) ∧ cs ≠ [])
    ⟨fun ⟨first, inside, nonempty⟩ => ⟨first, inside, nonempty⟩,
      fun h => ⟨h.first, h.inside, h.nonempty⟩⟩

/-- Characters that may begin a quoted text or a comment. -/
def textMarks : List Char := ['\'', '"', '\x60', '#', '-', '/']

/-- A character that is read by itself. -/
structure Sign (c : Char) : Prop where
  solid : isBlank c = false
  plain : c ∉ textMarks
  other : Dialect.mysql.startsWord c = false
  unlabelled : c ≠ ':'

instance (c : Char) : Decidable (Sign c) :=
  decidable_of_iff (isBlank c = false ∧ c ∉ textMarks ∧ Dialect.mysql.startsWord c = false ∧
      c ≠ ':')
    ⟨fun ⟨solid, plain, other, unlabelled⟩ => ⟨solid, plain, other, unlabelled⟩,
      fun h => ⟨h.solid, h.plain, h.other, h.unlabelled⟩⟩

/-- The text goes on with something else than a word. -/
def StopsWord (cs : List Char) : Prop := ∀ c ∈ cs.head?, Dialect.mysql.isWordChar c = false

theorem plain_of_mysqlWord {c : Char} (h : Dialect.mysql.isWordChar c = true) :
    c ∉ textMarks ∧ c ∉ ['(', ')', ',', ';', '.'] := by
  have apart : ∀ x ∈ textMarks ++ ['(', ')', ',', ';', '.'],
      Dialect.mysql.isWordChar x = false := by decide +kernel
  have listed : c ∉ textMarks ++ ['(', ')', ',', ';', '.'] := by
    intro mem
    rw [apart c mem] at h
    cases h
  exact not_or.mp (fun mem => listed (List.mem_append.mpr mem))

namespace Identifier

variable {w rest : List Char}

theorem cons (identifier : Identifier w) : ∃ c more, w = c :: more ∧
    Dialect.mysql.startsWord c = true := by
  obtain ⟨c, more, rfl⟩ := List.exists_cons_of_ne_nil identifier.nonempty
  exact ⟨c, more, rfl, identifier.first c rfl⟩

theorem wordAhead {ctx : Context} (identifier : Identifier w) (kind : ctx.kind = .mysql)
    (delimiter : ctx.delimiter = .semicolon) (stops : StopsWord rest) :
    ctx.wordAhead (w ++ rest) = w := by
  refine Context.wordAhead_whole ?_ ?_ ?_
  · intro c mem
    rw [Dialect.mysql.isWordChar_eq kind]
    exact identifier.inside c mem
  · intro c mem more
    have other : c ≠ ';' := by
      rintro rfl
      exact (plain_of_mysqlWord (identifier.inside _ mem)).2 (by decide)
    have ordinary : Delimiter.semicolon.Ordinary := Or.inl rfl
    rw [delimiter]
    exact ordinary.startsAt other
  · intro c head
    rw [Dialect.mysql.isWordChar_eq kind]
    exact stops c head

theorem tokenAhead? {ctx : Context} {gap : List Char} (identifier : Identifier w)
    (kind : ctx.kind = .mysql) (blank : ∀ c ∈ gap, isBlank c = true) (stops : StopsWord rest) :
    ctx.tokenAhead? (gap ++ (w ++ rest)) = some (String.ofList (upper w)) := by
  obtain ⟨c, more, rfl, starts⟩ := identifier.cons
  have trimmed : trimStart (gap ++ (c :: more ++ rest)) = c :: (more ++ rest) := by
    refine trimStart_append blank ?_
    rintro x ⟨⟩
    exact Dialect.isBlank_of_isWordChar (identifier.inside c List.mem_cons_self)
  have whole : (more ++ rest).takeWhile ctx.isWordChar = more := by
    refine takeWhile_append ?_ ?_
    · intro x mem
      rw [Dialect.mysql.isWordChar_eq kind]
      exact identifier.inside x (List.mem_cons_of_mem c mem)
    · intro x head
      rw [Dialect.mysql.isWordChar_eq kind]
      exact stops x head
  simp only [Context.tokenAhead?, trimmed]
  rw [Dialect.mysql.startsWord_eq kind, if_pos starts, whole]

end Identifier

namespace Session

variable {s t u : Session} {draft e : Option Draft} {d : Draft} {c : Char} {rest w : List Char}

/-- What has to hold for a token to be read as in MySQL. -/
structure Plainly (s : Session) : Prop where
  dialect : s.dialect = .mysql
  delimiter : s.context.delimiter = .semicolon

theorem Plainly.gap?_eq_none (h : s.Plainly) (ahead : s.cursor.ahead = c :: rest)
    (solid : isBlank c = false) (plain : c ∉ textMarks)
    (on : c ≠ ';' ∨ s.context.blocks ≠ []) : s.gap? draft c = none := by
  simp only [textMarks, List.mem_cons, List.not_mem_nil, or_false, not_or] at plain
  obtain ⟨-, -, -, hash, dash, slash⟩ := plain
  refine gap?_eq_none_iff.mpr ⟨solid, ?_, ?_, ?_⟩
  · exact delimiterLength?_ordinary (Or.inl h.delimiter) ahead solid slash
      (on.elim (fun other => Or.inr (Or.inl other)) Or.inl)
  · intro _
    rw [atTerminator, h.dialect]
    rfl
  · rw [ahead, h.dialect]
    simp [Dialect.comment?, Dialect.mysql, List.isPrefixOf, hash, Ne.symm dash, Ne.symm slash]

theorem mysql_token (rest : List Char) (plain : c ∉ textMarks) :
    Dialect.mysql.dollarQuote? c rest = none ∧ Dialect.mysql.quote? c rest = none := by
  simp only [textMarks, List.mem_cons, List.not_mem_nil, or_false, not_or] at plain
  obtain ⟨single, double, back, -⟩ := plain
  simp [Dialect.dollarQuote?, Dialect.quote?, Dialect.identifierClose?, Dialect.mysql,
    Dialect.plain, single, double, Ne.symm back]

theorem Plainly.word (h : s.Plainly) (identifier : Identifier w)
    (ahead : s.cursor.ahead = w ++ rest) (stops : StopsWord rest)
    (begun : s.begin draft = .ok (u, d)) (kind : u.context.kind = .mysql)
    (undirected : d.leading ≠ [] ∨ String.ofList (upper w) ≠ "DELIMITER")
    (taken : (u.skip w.length).takeWord d (String.ofList (upper w)) = .more t e) :
    Step s draft t e := by
  obtain ⟨context, rfl⟩ := begin_ok begun
  obtain ⟨c, more, rfl, starts⟩ := identifier.cons
  have letter := identifier.inside c List.mem_cons_self
  obtain ⟨plain, known⟩ := plain_of_mysqlWord letter
  have other : c ≠ ';' := by
    rintro rfl
    exact known (by decide)
  have here : s.cursor.ahead = c :: (more ++ rest) := ahead
  have gap : s.gap? draft c = none :=
    h.gap?_eq_none here (Dialect.isBlank_of_isWordChar letter) plain (Or.inl other)
  obtain ⟨dollar, quote⟩ := mysql_token (more ++ rest) plain
  generalize held : { s with context := { s.context with kind := context } } = u at *
  have same : u.cursor = s.cursor := by rw [← held]
  have delimiter : u.context.delimiter = .semicolon := by rw [← held]; exact h.delimiter
  have whole : u.word = c :: more := by
    rw [Session.word, same, ahead]
    exact identifier.wordAhead kind delimiter stops
  have may : ¬ u.mayDirect d = true := by
    rw [mayDirect_iff]
    rintro ⟨none, directive, -⟩
    rw [wordText, whole] at directive
    exact undirected.elim (fun some_ => some_ none) (fun differs => differs directive)
  refine step_of_pass ?_
  rw [pass_of_word here gap begun (h.dialect ▸ dollar) (h.dialect ▸ quote)
    ((Dialect.mysql.startsWord_eq kind c).trans starts), readWord_eq, if_neg may, afterWord,
    wordText, whole]
  exact taken

/-- The reading of a MySQL statement stands before this text. -/
structure Before (cs : List Char) (m : Mode) (s : Session) (d : Draft) : Prop where
  ahead : s.cursor.ahead = cs
  plainly : s.Plainly
  kind : s.context.kind = .mysql
  parens : s.context.parens = m.parens
  blocks : s.context.blocks = m.blocks
  clause : d.clauseStart = m.clause
  ended : (d.previous == some "END") = m.ended
  begun : d.leading ≠ []

/-- The word `text`, as the grammar is asked about it. -/
structure Asked (text : String) (rest : List Char) (m : Mode) (w : Word) (ctx : Context) :
    Prop where
  text : w.text = text
  ended : w.followsEnd = m.ended
  clause : w.clauseStart = m.clause
  next : w.next = ctx.tokenAhead? rest
  ahead : w.ahead = rest
  kind : ctx.kind = .mysql
  blocks : ctx.blocks = m.blocks

/-- Over the text the one way of reading becomes the other, and the statement goes on. -/
def Goes (cs : List Char) (m : Mode) (cs' : List Char) (n : Mode) : Prop :=
  ∀ s d, Before cs m s d → ∃ t e, Passes s (some d) t (some e) ∧ e.start = d.start ∧
    Before cs' n t e

namespace Goes

variable {cs : List Char} {m n : Mode} {text : String}

theorem refl (cs : List Char) (m : Mode) : Goes cs m cs m :=
  fun s d h => ⟨s, d, .refl s (some d), rfl, h⟩

theorem blanks {gap : List Char} (blank : ∀ c ∈ gap, isBlank c = true)
    (later : Goes rest m cs n) : Goes (gap ++ rest) m cs n := by
  intro s d before
  have passes : Passes s (some d) (s.skip gap.length) (some d) := passes_blanks blank before.ahead
  have left : (s.skip gap.length).cursor.ahead = rest := by
    rw [skip_cursor, Cursor.skip_ahead, before.ahead, List.drop_left]
  obtain ⟨t, e, passes', start, after⟩ := later (s.skip gap.length) d
    ⟨left, ⟨before.plainly.dialect, before.plainly.delimiter⟩, before.kind, before.parens,
      before.blocks, before.clause, before.ended, before.begun⟩
  exact ⟨t, e, passes_trans passes passes', start, after⟩

theorem sign (known : Sign c) (on : c ≠ ';' ∨ m.blocks ≠ [])
    (later : Goes rest ⟨m.blocks, parensAfter m.parens c, c == ';', m.ended⟩ cs n) :
    Goes (c :: rest) m cs n := by
  intro s d before
  have gap : s.gap? (some d) c = none :=
    before.plainly.gap?_eq_none before.ahead known.solid known.plain
      (on.imp_right fun inside => before.blocks ▸ inside)
  obtain ⟨dollar, quote⟩ := mysql_token rest known.plain
  have pass := pass_of_symbol before.ahead gap rfl (before.plainly.dialect ▸ dollar)
    (before.plainly.dialect ▸ quote) ((Dialect.mysql.startsWord_eq before.kind c).trans known.other)
  have label : (c == ':') = false := beq_eq_false_iff_ne.mpr known.unlabelled
  have next : Before rest ⟨m.blocks, parensAfter m.parens c, c == ';', m.ended⟩
      ((s.skip 1).countParen c) (d.afterSymbol c rest) := by
    rw [countParen_eq]
    refine ⟨?_, ⟨before.plainly.dialect, before.plainly.delimiter⟩, before.kind, ?_, before.blocks,
      ?_, before.ended, before.begun⟩
    · change (s.cursor.skip 1).ahead = rest
      rw [Cursor.skip_ahead, before.ahead]
      rfl
    · change parensAfter s.context.parens c = parensAfter m.parens c
      rw [before.parens]
    · simp [Draft.afterSymbol, label]
  obtain ⟨t, e, passes, start, after⟩ := later _ _ next
  exact ⟨t, e, .step (step_of_pass pass) passes, start, after⟩

/-- What a word does is told where it has been passed. -/
theorem take (identifier : Identifier w) (stops : StopsWord rest) {blocks : List String}
    (taken : ∀ s d, Before (w ++ rest) m s d → ∃ lastClosed warnings,
      (s.skip w.length).takeWord d (String.ofList (upper w)) =
        .more { s.skip w.length with context := { s.context with blocks, lastClosed }, warnings }
          (some (d.afterWord (String.ofList (upper w)))))
    (later : Goes rest ⟨blocks, m.parens, Draft.clauseOpeners.contains (String.ofList (upper w)),
      String.ofList (upper w) == "END"⟩ cs n) : Goes (w ++ rest) m cs n := by
  intro s d before
  obtain ⟨lastClosed, warnings, taken⟩ := taken s d before
  have step := before.plainly.word identifier before.ahead stops
    (show s.begin (some d) = .ok (s, d) from rfl) before.kind (Or.inl before.begun) taken
  have next : Before rest ⟨blocks, m.parens,
      Draft.clauseOpeners.contains (String.ofList (upper w)), String.ofList (upper w) == "END"⟩
      { s.skip w.length with context := { s.context with blocks, lastClosed }, warnings }
      (d.afterWord (String.ofList (upper w))) := by
    refine ⟨?_, ⟨before.plainly.dialect, before.plainly.delimiter⟩, before.kind, before.parens, rfl,
      rfl, rfl, ?_⟩
    · change (s.cursor.skip w.length).ahead = rest
      rw [Cursor.skip_ahead, before.ahead, List.drop_left]
    · have more := before.begun
      rw [Draft.afterWord]
      dsimp only
      split
      · exact List.append_ne_nil_of_left_ne_nil more _
      · exact more
  obtain ⟨t, e, passes, start, after⟩ := later _ _ next
  exact ⟨t, e, .step step passes, start, after⟩

/-- A word other than `END` may open a block. -/
theorem word (identifier : Identifier w) (stops : StopsWord rest)
    (spelled : String.ofList (upper w) = text) (other : text ≠ "END") (opens : Bool)
    (decides : ∀ w ctx, Asked text rest m w ctx → BlockGrammar.mysql.opens w ctx = opens)
    (later : Goes rest ⟨if opens then text :: m.blocks else m.blocks, m.parens,
      Draft.clauseOpeners.contains text, false⟩ cs n) : Goes (w ++ rest) m cs n := by
  subst spelled
  have unended : (String.ofList (upper w) == "END") = false := beq_eq_false_iff_ne.mpr other
  refine take identifier stops ?_ (by rw [unended]; exact later)
  intro s d before
  refine ⟨s.context.lastClosed, s.warnings, ?_⟩
  have left : (s.skip w.length).cursor.ahead = rest := by
    rw [skip_cursor, Cursor.skip_ahead, before.ahead, List.drop_left]
  have dialect : (s.skip w.length).dialect = .mysql := before.plainly.dialect
  have answer := decides ((s.skip w.length).asWord d (String.ofList (upper w))
    (s.context.tokenAhead? (s.skip w.length).cursor.ahead)) s.context
    ⟨rfl, before.ended, before.clause, by rw [left]; rfl, left, before.kind, before.blocks⟩
  have grammar : (s.skip w.length).dialect.blocks = .mysql := by rw [dialect]; rfl
  have asks : d.asks .mysql (String.ofList (upper w)) = none := by
    simp [Draft.asks, BlockGrammar.statementDelimiter?]
  simp only [takeWord, beq_iff_eq, other, if_false, openBlock_eq, classify_eq, skip_context,
    grammar, answer, before.blocks, asks]
  rfl

/-- An `END` closes the innermost block. -/
theorem close {initiator : String} {outer : List String} (open_ : m.blocks = initiator :: outer)
    (stops : StopsWord rest) (later : Goes rest ⟨outer, m.parens, false, true⟩ cs n) :
    Goes ("END".toList ++ rest) m cs n := by
  have spelled : String.ofList (upper "END".toList) = "END" := by decide
  have follows : Goes rest ⟨outer, m.parens,
      Draft.clauseOpeners.contains (String.ofList (upper "END".toList)),
      String.ofList (upper "END".toList) == "END"⟩ cs n := by
    rw [spelled]
    exact later
  refine take (by decide +kernel) stops ?_ follows
  intro s d before
  rw [spelled]
  have dialect : (s.skip "END".toList.length).dialect = .mysql := before.plainly.dialect
  have grammar : (s.skip "END".toList.length).dialect.blocks = .mysql := by rw [dialect]; rfl
  have inside : (s.skip "END".toList.length).context.blocks = initiator :: outer :=
    before.blocks.trans open_
  have asks : d.asks .mysql "END" = none := by
    simp [Draft.asks, BlockGrammar.statementDelimiter?]
  have left : s.context.leave .mysql initiator outer =
      { s.context with blocks := outer, lastClosed := some initiator } := rfl
  refine ⟨some initiator, s.warnings ++ ((s.skip "END".toList.length).mismatch? initiator
    (s.context.tokenAhead? (s.skip "END".toList.length).cursor.ahead)).toList, ?_⟩
  simp only [takeWord, beq_self_eq_true, if_true, closeBlock_cons inside, classify_eq, skip_context,
    grammar, asks, left]
  rfl

/-- A word that neither opens a block nor closes one. -/
theorem plain (w text : String) (identifier : Identifier w.toList) (stops : StopsWord rest)
    (spelled : String.ofList (upper w.toList) = text)
    (other : text ∉ "END" :: BlockGrammar.mysql.openers)
    (later : Goes rest ⟨m.blocks, m.parens, Draft.clauseOpeners.contains text, false⟩ cs n) :
    Goes (w.toList ++ rest) m cs n := by
  rw [List.mem_cons, not_or] at other
  refine word identifier stops spelled other.1 false ?_ later
  intro w ctx asked
  exact BlockGrammar.opens_other (asked.text ▸ other.2)

theorem stops_space (rest : List Char) : StopsWord (' ' :: rest) := by
  rintro c ⟨⟩
  decide +kernel

theorem space (later : Goes rest m cs n) : Goes (' ' :: rest) m cs n :=
  have blank : ∀ c ∈ [' '], isBlank c = true := by decide
  blanks blank later

/-- Such a word with a space behind it. -/
theorem spaced (w text : String) (identifier : Identifier w.toList)
    (spelled : String.ofList (upper w.toList) = text)
    (other : text ∉ "END" :: BlockGrammar.mysql.openers)
    (later : Goes rest ⟨m.blocks, m.parens, Draft.clauseOpeners.contains text, false⟩ cs n) :
    Goes (w.toList ++ ' ' :: rest) m cs n :=
  plain w text identifier (stops_space rest) spelled other (space later)

end Goes

end Session

end SqlBoundary
