import SqlBoundary.Proofs.Layout
import SqlBoundary.Proofs.Segment

/-!
# Reading a program token by token

Where the tokens of a program are ahead, what the reading goes by is little: the blocks open, the
depth of parentheses, whether a statement may begin here and whether the last word was an `END`.
`Reads` says how it changes over some tokens, whatever comes behind them. It is put together from
one rule for a word, one for an `END` and one for a sign.
-/

namespace SqlBoundary

open Text Lexeme

/-- The dialects with stored programs. -/
def Dialect.Procedural (dialect : Dialect) : Prop := dialect = .mysql ∨ dialect = .oracle

namespace Dialect.Procedural

variable {dialect : Dialect} {c : Char} {rest : List Char}

theorem token (h : dialect.Procedural) (plain : c ∉ otherMarks) (p : Char → Bool) :
    dialect.token p c rest = if p c then .word else .symbol c := by
  simp only [otherMarks, List.mem_cons, List.not_mem_nil, or_false, not_or] at plain
  obtain ⟨single, double, back, -⟩ := plain
  have single' : ('\'' == c) = false := beq_eq_false_iff_ne.mpr (Ne.symm single)
  rcases h with rfl | rfl
  · simp [Dialect.token, Dialect.dollarQuote?, Dialect.quote?, Dialect.identifierClose?,
      Dialect.mysql, Dialect.plain, single, double, Ne.symm back]
  · simp [Dialect.token, Dialect.dollarQuote?, Dialect.quote?, Dialect.identifierClose?,
      Dialect.oracle, Dialect.plain, single, Ne.symm double]

end Dialect.Procedural

theorem comment?_of_plain (dialect : Dialect) {c : Char} {rest : List Char}
    (plain : c ∉ otherMarks) :
    dialect.comment? (c :: rest) = none := by
  simp only [otherMarks, List.mem_cons, List.not_mem_nil, or_false, not_or] at plain
  obtain ⟨-, -, -, hash, dash, slash, -⟩ := plain
  simp [Dialect.comment?, List.isPrefixOf, hash, Ne.symm dash, Ne.symm slash]

/-- The two delimiters of stored programs. -/
def Delimiter.Ordinary (d : Delimiter) : Prop := d = .semicolon ∨ d = .slash

/-- A line that does not begin like the delimiter is not filled by it. -/
theorem Delimiter.fillsLine_of_first {d : Delimiter} {c x : Char} {rest : List Char}
    (first : d.text.toList.head? = some x) (solid : isBlank c = false)
    (other : c.toLower ≠ x.toLower) : d.fillsLine (c :: rest) = false := by
  have line : currentLine (c :: rest) = c :: currentLine rest := by
    simp [currentLine, ne_lineFeed_of_solid solid]
  obtain ⟨more, trimmed⟩ := trimEnd_cons solid (currentLine rest)
  obtain ⟨text, split⟩ := List.head?_eq_some_iff.mp first
  rw [fillsLine, line, trimmed, sameIgnoringCase, beq_eq_false_iff_ne, split]
  exact fun same => other (List.cons.inj same).1

theorem fillsLine_slash {c : Char} {rest : List Char} (solid : isBlank c = false)
    (plain : c ≠ '/') : Delimiter.slash.fillsLine (c :: rest) = false :=
  Delimiter.fillsLine_of_first (x := '/') (by decide) solid
    fun same => plain (eq_of_toLower_eq (by decide) same)

namespace Delimiter.Ordinary

variable {d : Delimiter} {c : Char} {rest : List Char}

/-- Nothing but a semicolon begins the delimiter. -/
theorem startsAt (h : d.Ordinary) (other : c ≠ ';') : d.startsAt (c :: rest) = false := by
  rcases h with rfl | rfl
  · simp [Delimiter.startsAt, Delimiter.semicolon, Delimiter.inline, List.isPrefixOf, Ne.symm other]
  · rfl

end Delimiter.Ordinary

namespace Session

variable {s t u : Session} {draft e f : Option Draft} {d : Draft} {c : Char} {rest : List Char}

/-- Inside a block, or before anything but the delimiter, a statement goes on. -/
theorem delimiterLength?_ordinary (ordinary : s.context.delimiter.Ordinary)
    (ahead : s.cursor.ahead = c :: rest) (solid : isBlank c = false) (slash : c ≠ '/')
    (on : s.context.blocks ≠ [] ∨ c ≠ ';' ∨ s.context.delimiter = .slash) :
    s.delimiterLength? = none := by
  rw [Option.eq_none_iff_forall_ne_some]
  intro n found
  obtain ⟨outside, ⟨alone, line, -⟩ | ⟨-, starts, -⟩⟩ := delimiterLength?_eq_some found
  · rcases ordinary with same | same
    · rw [same] at alone
      cases alone
    · rw [same, Cursor.atLineOf, ahead, fillsLine_slash solid slash, Bool.and_false] at line
      cases line
  · rcases on with inside | other | alone
    · exact inside outside
    · rw [ahead, ordinary.startsAt other] at starts
      cases starts
    · rw [alone] at starts
      cases starts

/-- What has to hold for the next token to be read, and not a gap. -/
structure Ready (s : Session) (c : Char) : Prop where
  procedural : s.dialect.Procedural
  ordinary : s.context.delimiter.Ordinary
  on : s.context.blocks ≠ [] ∨ c ≠ ';' ∨ s.context.delimiter = .slash

theorem gap?_ready (h : s.Ready c) (ahead : s.cursor.ahead = c :: rest)
    (solid : isBlank c = false) (plain : c ∉ otherMarks) : s.gap? draft c = none := by
  have slash : c ≠ '/' := by
    rintro rfl
    exact plain (by decide)
  refine gap?_eq_none_iff.mpr
    ⟨solid, delimiterLength?_ordinary h.ordinary ahead solid slash h.on, ?_,
    ahead ▸ comment?_of_plain s.dialect plain⟩
  intro _
  rcases h.procedural with dialect | dialect
  · rw [atTerminator, dialect]
    rfl
  · have terminator : s.dialect.standaloneTerminator = some .slash := by rw [dialect]; rfl
    rw [atTerminator, terminator, Option.any_some, Cursor.atLineOf, ahead,
      fillsLine_slash solid slash, Bool.and_false]

/-- A word and the blanks behind it. -/
theorem passes_word {cs gap : List Char} {text : String} (spelled : Spelled cs text)
    (ahead : s.cursor.ahead = cs ++ (gap ++ rest)) (blank : ∀ c ∈ gap, isBlank c = true)
    (ends : EndsWord (gap ++ rest)) (h : ∀ c, c ≠ ';' → s.Ready c)
    (begun : s.begin draft = .ok (u, d)) (plain : d.leading ≠ [] ∨ text ≠ "DELIMITER")
    (taken : (u.skip cs.length).takeWord d text = .more t e)
    (kept : t.cursor = u.cursor.skip cs.length) : Passes s draft (t.skip gap.length) e := by
  obtain ⟨kind, same⟩ := begin_ok begun
  obtain ⟨c, word, rfl, inside, begins, -⟩ := spelled.starts u.context
  obtain ⟨solid, -, -, others, known, -⟩ := identifier_facts inside
  have other : c ≠ ';' := by
    rintro rfl
    exact known (by decide)
  have cursor : u.cursor = s.cursor := by rw [same]
  have ahead' : s.cursor.ahead = c :: (word ++ (gap ++ rest)) := by rw [ahead, List.cons_append]
  have whole : u.word = c :: word := by
    rw [Session.word, cursor, ahead]
    refine wordAhead_laid spelled ?_ ends
    intro x more inside
    have delimiter : u.context.delimiter = s.context.delimiter := by rw [same]
    rw [delimiter]
    refine (h c other).ordinary.startsAt ?_
    rintro rfl
    exact (identifier_facts inside).2.2.2.2.1 (by decide)
  have text' : u.wordText = text := by rw [wordText, whole, spelled.upper]
  have token : u.dialect.token u.context.startsWord c (word ++ (gap ++ rest)) = .word := by
    have dialect : u.dialect.Procedural := by rw [same]; exact (h c other).procedural
    rw [dialect.token others, if_pos begins]
  have undirected : u.mayDirect d = true → u.directive? = .ok none := by
    intro may
    obtain ⟨none, directive, -⟩ := mayDirect_iff.mp may
    rcases plain with some_ | other
    · exact absurd none some_
    · exact absurd (text'.symm.trans directive) other
  have step : Step s draft t e := by
    refine .word ahead' (gap?_ready (h c other) ahead' solid others) begun token undirected ?_
    rw [afterWord, whole, text']
    exact taken
  have behind : t.cursor.ahead = gap ++ rest := by
    rw [kept, cursor, Cursor.skip_ahead, ahead, List.drop_left]
  exact .step step (passes_blanks blank behind)

theorem passes_sign {gap : List Char} (known : c ∈ signs)
    (ahead : s.cursor.ahead = c :: (gap ++ rest)) (blank : ∀ c ∈ gap, isBlank c = true)
    (h : s.Ready c) : Passes s (some d) (((s.skip 1).countParen c).skip gap.length)
      (some (d.afterSymbol c (gap ++ rest))) := by
  have solid := isBlank_of_sign known
  have others : c ∉ otherMarks := (by decide : ∀ c ∈ signs, c ∉ otherMarks) c known
  have token : s.dialect.token s.context.startsWord c (gap ++ rest) = .symbol c := by
    rw [h.procedural.token others, startsWord_sign known s.context]
    rfl
  have step : Step s (some d) ((s.skip 1).countParen c) (some (d.afterSymbol c (gap ++ rest))) :=
    .symbol ahead (gap?_ready h ahead solid others) rfl token
  have behind : ((s.skip 1).countParen c).cursor.ahead = gap ++ rest := by
    rw [countParen_eq]
    change (s.cursor.skip 1).ahead = gap ++ rest
    rw [Cursor.skip_ahead, ahead]
    rfl
  exact .step step (passes_blanks blank behind)

end Session

/-- What a part of a program is read in: the dialect, the active delimiter, words that the
statement begins with, and what comes after the program. -/
structure Scene where
  dialect : Dialect
  delimiter : Delimiter
  lead : List String
  after : List Char

structure Scene.Fit (sc : Scene) : Prop where
  procedural : sc.dialect.Procedural
  ordinary : sc.delimiter.Ordinary
  begun : sc.lead ≠ []
  ends : EndsWord sc.after

structure Mode where
  blocks : List String
  parens : Int32
  /-- A procedural statement surely may begin here. -/
  clause : Bool
  /-- The last word was an `END`. -/
  ended : Bool

namespace Scene

/-- The reading stands before these tokens. -/
structure Stands (sc : Scene) (ts : List Piece) (m : Mode) (s : Session) (d : Draft) : Prop where
  laid : Laid sc.after ts s.cursor.ahead
  dialect : s.dialect = sc.dialect
  delimiter : s.context.delimiter = sc.delimiter
  script : s.scriptDelimiter = .semicolon
  parens : s.context.parens = m.parens
  blocks : s.context.blocks = m.blocks
  clause : m.clause = true → d.clauseStart = true
  ended : (d.previous == some "END") = m.ended
  lead : sc.lead <+: d.leading
  silent : s.warnings = []
  live : s.exhausted = false

/-- The word `text`, as the grammar is asked about it before these tokens. -/
structure Met (sc : Scene) (text : String) (ts : List Piece) (m : Mode) (w : Word) : Prop where
  text : w.text = text
  ended : w.followsEnd = m.ended
  clause : m.clause = true → w.clauseStart = true
  lead : sc.lead <+: w.leading
  next : ∀ piece ∈ ts.head?, w.next = some piece.text
  ahead : ∀ keywords r, Seeks sc.after keywords 0 ts r → nextKeyword? w.ahead keywords = r

variable {sc : Scene} {text : String} {c : Char} {ts us : List Piece} {m n : Mode} {s : Session}
variable {d : Draft}

theorem Stands.ready (fit : sc.Fit) (h : sc.Stands ts m s d)
    (on : m.blocks ≠ [] ∨ c ≠ ';' ∨ sc.delimiter = .slash) : s.Ready c where
  procedural := h.dialect ▸ fit.procedural
  ordinary := h.delimiter ▸ fit.ordinary
  on := by
    rw [h.blocks, h.delimiter]
    exact on

theorem lead_afterWord (h : sc.lead <+: d.leading) (text : String) :
    sc.lead <+: (d.afterWord text).leading := by
  rw [Draft.afterWord]
  dsimp only
  split
  · exact h.trans (List.prefix_append _ _)
  · exact h

/-- A word is read: what it does is told where it has been passed. -/
theorem Stands.take (fit : sc.Fit) (h : sc.Stands (.word text :: ts) m s d) {blocks : List String}
    (taken : ∀ n gap rest, (∀ c ∈ gap, isBlank c = true) → Laid sc.after ts rest →
      (s.skip n).cursor.ahead = gap ++ rest → ∃ lastClosed, (s.skip n).takeWord d text =
        .more { s.skip n with context := { s.context with
            delimiter := (d.asks sc.dialect.blocks text).getD sc.delimiter, blocks, lastClosed } }
          (some (d.afterWord text))) :
    ∃ t, Session.Passes s (some d) t (some (d.afterWord text)) ∧
      Stands { sc with delimiter := (d.asks sc.dialect.blocks text).getD sc.delimiter } ts
        ⟨blocks, m.parens, Draft.clauseOpeners.contains text, text == "END"⟩ t
        (d.afterWord text) := by
  obtain ⟨word, gap, rest, ahead, spelled, blank, apart, later⟩ := h.laid.of_word
  have after : (s.skip word.length).cursor.ahead = gap ++ rest := by
    rw [Session.skip_cursor, Cursor.skip_ahead, ahead, List.drop_left]
  obtain ⟨lastClosed, taken⟩ := taken word.length gap rest blank later after
  have leading : d.leading ≠ [] := by
    intro none
    exact fit.begun (List.prefix_nil.mp (none ▸ h.lead))
  have passes := Session.passes_word spelled ahead blank (later.endsWord fit.ends blank apart)
    (fun c plain => h.ready fit (Or.inr (Or.inl plain)))
    (show s.begin (some d) = .ok (s, d) from rfl) (Or.inl leading) taken rfl
  refine ⟨_, passes, ?_, h.dialect, rfl, h.script, h.parens, rfl, id, rfl,
    lead_afterWord h.lead text, h.silent, h.live⟩
  rw [Session.skip_cursor, Cursor.skip_ahead, after, List.drop_left]
  exact later

/-- A word other than `END` may open a block. -/
theorem Stands.word (fit : sc.Fit) (h : sc.Stands (.word text :: ts) m s d) (other : text ≠ "END")
    {opens : Bool} (decides : ∀ w ctx, sc.Met text ts m w → ctx.blocks = m.blocks →
      sc.dialect.blocks.opens w ctx = opens) :
    ∃ t, Session.Passes s (some d) t (some (d.afterWord text)) ∧
      Stands { sc with delimiter := (d.asks sc.dialect.blocks text).getD sc.delimiter } ts
        ⟨if opens then text :: m.blocks else m.blocks, m.parens,
          Draft.clauseOpeners.contains text, text == "END"⟩ t (d.afterWord text) := by
  refine h.take fit ?_
  intro n gap rest blank later ahead
  have met : sc.Met text ts m
      ((s.skip n).asWord d text (s.context.tokenAhead? (s.skip n).cursor.ahead)) := by
    refine ⟨rfl, h.ended, h.clause, h.lead, ?_, ?_⟩
    · rintro piece head
      obtain ⟨us, rfl⟩ := List.head?_eq_some_iff.mp head
      rw [ahead]
      exact later.tokenAhead? fit.ends blank s.context
    · intro keywords r seeks
      change seekKeyword keywords 0 0 (s.skip n).cursor.ahead = r
      rw [ahead]
      exact seeks gap rest blank later
  refine ⟨s.context.lastClosed, ?_⟩
  have dialect : (s.skip n).dialect = sc.dialect := h.dialect
  have answer := decides _ s.context met h.blocks
  simp only [Session.takeWord, beq_iff_eq, other, if_false, Session.openBlock_eq,
    Session.classify_eq, Session.skip_context, dialect, answer, h.blocks, h.delimiter]
  rfl

/-- An `END` closes the innermost block, and the one around it if that shares the `END`. -/
theorem Stands.close (fit : sc.Fit) (h : sc.Stands (.word "END" :: ts) m s d)
    {initiator : String} {outer left : List String} (blocks : m.blocks = initiator :: outer)
    (shares : ∀ ctx : Context, ctx.blocks = outer →
      (if sc.dialect.blocks.closesEnclosing initiator ctx then outer.tail else outer) = left)
    {piece : Piece} (next : piece ∈ ts.head?)
    (named : piece.text ∈ Session.blockNames → piece.text = initiator) :
    ∃ t, Session.Passes s (some d) t (some (d.afterWord "END")) ∧
      Stands { sc with delimiter := (d.asks sc.dialect.blocks "END").getD sc.delimiter } ts
        ⟨left, m.parens, false, true⟩ t (d.afterWord "END") := by
  refine h.take fit ?_
  intro n gap rest blank later ahead
  have seen : s.context.tokenAhead? (s.skip n).cursor.ahead = some piece.text := by
    obtain ⟨us, rfl⟩ := List.head?_eq_some_iff.mp next
    rw [ahead]
    exact later.tokenAhead? fit.ends blank s.context
  have right : (s.skip n).mismatch? initiator (some piece.text) = none := by
    simp only [Session.mismatch?, ite_eq_right_iff, Bool.and_eq_true, bne_iff_ne, and_imp,
      List.contains_eq_mem, decide_eq_true_eq]
    intro listed other
    exact absurd (named listed) other
  have inside : (s.skip n).context.blocks = initiator :: outer := h.blocks.trans blocks
  have dialect : (s.skip n).dialect = sc.dialect := h.dialect
  obtain ⟨lastClosed, same⟩ : ∃ lastClosed, s.context.leave sc.dialect.blocks initiator outer =
      { s.context with blocks := left, lastClosed } := by
    have shared := shares { s.context with blocks := outer } rfl
    rw [Context.leave]
    split
    · next yes =>
      rw [if_pos yes] at shared
      exact ⟨_, by rw [shared]⟩
    · next no =>
      rw [if_neg no] at shared
      exact ⟨_, by rw [shared]⟩
  refine ⟨lastClosed, ?_⟩
  simp only [Session.takeWord, beq_self_eq_true, if_true, Session.skip_context, seen,
    Session.closeBlock_cons inside, right, Session.classify_eq, dialect, same, h.delimiter,
    Option.toList_none, List.append_nil]
  rfl

/-- A sign is read. After a semicolon a statement may begin, and after the colon of a label. -/
theorem Stands.sign (fit : sc.Fit) (h : sc.Stands (.sign c :: ts) m s d)
    (on : m.blocks ≠ [] ∨ c ≠ ';' ∨ sc.delimiter = .slash) {clause : Bool}
    (begins : clause = true → c = ';' ∨ c = ':' ∧ ∃ text, .word text ∈ ts.head?) :
    ∃ t e, Session.Passes s (some d) t (some e) ∧ e.start = d.start ∧
      sc.Stands ts ⟨m.blocks, parensAfter m.parens c, clause, m.ended⟩ t e := by
  obtain ⟨gap, rest, ahead, known, blank, later⟩ := h.laid.of_sign
  refine ⟨_, _, Session.passes_sign known ahead blank (h.ready fit on), rfl, ?_⟩
  rw [Session.countParen_eq]
  refine ⟨?_, h.dialect, h.delimiter, h.script, ?_, h.blocks, ?_, h.ended, h.lead, h.silent, h.live⟩
  · change Laid sc.after ts (((s.cursor.skip 1).skip gap.length).ahead)
    rw [Cursor.skip_skip, Cursor.skip_ahead, ahead, Nat.add_comm, List.drop_succ_cons,
      List.drop_left]
    exact later
  · change parensAfter s.context.parens c = parensAfter m.parens c
    rw [h.parens]
  · intro yes
    change (c == ';' || (c == ':' && (gap ++ rest).head? != some '=' &&
      (gap ++ rest).head? != some ':')) = true
    rcases begins yes with rfl | ⟨rfl, text, head⟩
    · rfl
    · obtain ⟨us, rfl⟩ := List.head?_eq_some_iff.mp head
      have plain := later.head_of_word blank
      have equals : (gap ++ rest).head? ≠ some '=' := fun same => plain _ same (by decide)
      have colon : (gap ++ rest).head? ≠ some ':' := fun same => plain _ same (by decide)
      rw [bne_iff_ne.mpr equals, bne_iff_ne.mpr colon]
      rfl

/-- Over the tokens `ts` before `us`, the one way of reading becomes the other, and the statement
goes on. -/
def Reads (sc : Scene) (ts us : List Piece) (m n : Mode) : Prop :=
  ∀ s d, sc.Stands ts m s d → ∃ t e, Session.Passes s (some d) t (some e) ∧ e.start = d.start ∧
    sc.Stands us n t e

theorem Reads.refl (sc : Scene) (ts : List Piece) (m : Mode) : sc.Reads ts ts m m :=
  fun s d h => ⟨s, d, .refl s (some d), rfl, h⟩

theorem Reads.trans {vs : List Piece} {o : Mode} (h : sc.Reads ts us m n)
    (later : sc.Reads us vs n o) : sc.Reads ts vs m o := by
  intro s d stands
  obtain ⟨t, e, passes, start, stands⟩ := h s d stands
  obtain ⟨u, f, passes', start', stands⟩ := later t e stands
  exact ⟨u, f, Session.passes_trans passes passes', start'.trans start, stands⟩

/-- That a statement may begin here need not be known. -/
theorem Reads.forget (h : sc.Reads ts us ⟨m.blocks, m.parens, false, m.ended⟩ n) :
    sc.Reads ts us m n :=
  fun s d stands => h s d { stands with clause := nofun }

/-- No statement of the grammar takes another delimiter than the active one. -/
def Settled (sc : Scene) : Prop := sc.dialect.blocks = .oracle → sc.delimiter = .slash

theorem Settled.asks (settled : sc.Settled) (d : Draft) (text : String) :
    { sc with delimiter := (d.asks sc.dialect.blocks text).getD sc.delimiter } = sc := by
  have same : (d.asks sc.dialect.blocks text).getD sc.delimiter = sc.delimiter := by
    cases asked : d.asks sc.dialect.blocks text with
    | none => rfl
    | some x =>
      obtain ⟨grammar, rfl⟩ := Session.asks_eq_some asked
      exact (settled grammar).symm
  rw [same]

/-- The scene of a program's body. -/
structure Body (sc : Scene) : Prop extends sc.Fit where
  settled : sc.Settled

theorem Reads.word (body : sc.Body) (other : text ≠ "END") (opens : Bool)
    (decides : ∀ w ctx, sc.Met text ts m w → ctx.blocks = m.blocks →
      sc.dialect.blocks.opens w ctx = opens)
    (later : sc.Reads ts us ⟨if opens then text :: m.blocks else m.blocks, m.parens,
      Draft.clauseOpeners.contains text, false⟩ n) :
    sc.Reads (.word text :: ts) us m n := by
  intro s d stands
  obtain ⟨t, passes, next⟩ := stands.word body.toFit other decides
  rw [body.settled.asks, beq_eq_false_iff_ne.mpr other] at next
  obtain ⟨u, f, passes', start, last⟩ := later t _ next
  exact ⟨u, f, Session.passes_trans passes passes', start, last⟩

theorem Reads.close (body : sc.Body) {initiator : String} {outer left : List String}
    (blocks : m.blocks = initiator :: outer)
    (shares : ∀ ctx : Context, ctx.blocks = outer →
      (if sc.dialect.blocks.closesEnclosing initiator ctx then outer.tail else outer) = left)
    {piece : Piece} (next : piece ∈ ts.head?)
    (named : piece.text ∈ Session.blockNames → piece.text = initiator)
    (later : sc.Reads ts us ⟨left, m.parens, false, true⟩ n) :
    sc.Reads (.word "END" :: ts) us m n := by
  intro s d stands
  obtain ⟨t, passes, after⟩ := stands.close body.toFit blocks shares next named
  rw [body.settled.asks] at after
  obtain ⟨u, f, passes', start, last⟩ := later t _ after
  exact ⟨u, f, Session.passes_trans passes passes', start, last⟩

theorem Reads.sign (body : sc.Body) (on : m.blocks ≠ [] ∨ c ≠ ';' ∨ sc.delimiter = .slash)
    (clause : Bool) (begins : clause = true → c = ';' ∨ c = ':' ∧ ∃ text, .word text ∈ ts.head?)
    (later : sc.Reads ts us ⟨m.blocks, parensAfter m.parens c, clause, m.ended⟩ n) :
    sc.Reads (.sign c :: ts) us m n := by
  intro s d stands
  obtain ⟨t, e, passes, start, next⟩ := stands.sign body.toFit on begins
  obtain ⟨u, f, passes', start', last⟩ := later t e next
  exact ⟨u, f, Session.passes_trans passes passes', start'.trans start, last⟩

end Scene

end SqlBoundary
