import SqlBoundary.Proofs.Gaps

/-!
# What is seen before a gap

A pass that ends before a gap, or where the gap begins, sees no more of it than what some words
are followed by a look at: a `BEGIN` at the next token, an `IF` at the next keyword, a directive
at the rest of its line. With another gap in its place it sees the same, if these looks do.
-/

namespace SqlBoundary

open Text Lexeme

namespace BlockGrammar

/-- Outside Oracle only an `IF` searches for keywords. -/
theorem sought?_eq_some {grammar : BlockGrammar} {w : Word} {ctx : Context} {keywords : List String}
    (other : grammar ≠ .oracle) (sought : grammar.sought? w ctx = some keywords) :
    grammar = .mysql ∧ w.text = "IF" ∧ ctx.blocks ≠ [] ∧ w.clauseStart = true ∧
      keywords = branchKeywords := by
  cases grammar with
  | common => cases sought
  | oracle => exact absurd rfl other
  | mysql =>
    rw [sought?] at sought
    split at sought
    · next clause => exact ⟨rfl, clause.1, clause.2.1, clause.2.2.1, (Option.some.inj sought).symm⟩
    · cases sought

end BlockGrammar

namespace Session

variable {s t u : Session} {draft e : Option Draft} {x : Draft} {c : Char} {n : Nat}
variable {rest a b v w : List Char}

/-- The looks from the word ahead find the same before both gaps, where `w` stands between the
word and them. -/
structure Overlooks (u : Session) (x : Draft) (w a b : List Char) : Prop where
  transaction : u.wordText = "BEGIN" →
    BlockGrammar.beginsTransaction (u.context.tokenAhead? (w ++ b)) =
      BlockGrammar.beginsTransaction (u.context.tokenAhead? (w ++ a))
  search : u.dialect.blocks = .mysql → u.wordText = "IF" → u.context.blocks ≠ [] →
    x.clauseStart = true →
    nextKeyword? (w ++ b) BlockGrammar.branchKeywords =
      nextKeyword? (w ++ a) BlockGrammar.branchKeywords
  directive : w = [] → u.mayDirect x = true → b.head?.any isBlank = a.head?.any isBlank

/-- A line is no directive if a character follows the keyword that is not blank, and no such line is
one with any other such character there. -/
theorem directive?_none_of_solid {r r' : List Char} (ahead : u.cursor.ahead = u.word ++ r)
    (may : u.mayDirect x = true) (plain : u.directive? = .ok none)
    (solid : ∀ c ∈ r.head?, isBlank c = false → ∃ y ∈ r'.head?, isBlank y = false) :
    (u.facing (u.word ++ r')).directive? = .ok none := by
  have word : String.ofList (upper u.word) = "DELIMITER" := (mayDirect_iff.mp may).2.1
  have letters : ∀ x ∈ u.word, isBlank x = false := fun x mem =>
    isBlank_of_isWordChar (Context.isWordChar_of_mem_wordAhead mem)
  have line : ∀ r, currentLine (u.word ++ r) = u.word ++ currentLine r := by
    intro r
    refine currentLine_append_of_not_mem ?_ r
    exact fun mem => ne_lineFeed_of_solid (letters _ mem) rfl
  rw [directive?, ahead, line] at plain
  obtain ⟨c, rest, split, next⟩ := Delimiter.solid_of_ofDirective? word plain
  have first : c ∈ r.head? := by
    cases r with
    | nil => cases split
    | cons z r =>
      have head := congrArg List.head? split
      by_cases feed : z = '\n'
      · simp [currentLine, feed] at head
      · simpa [currentLine, feed] using head
  obtain ⟨y, head, solid'⟩ := solid c first next
  obtain ⟨more, rfl⟩ := List.head?_eq_some_iff.mp head
  have line' : currentLine (y :: more) = y :: currentLine more := by
    simp [currentLine, ne_lineFeed_of_solid solid']
  rw [directive?]
  change Delimiter.ofDirective? (currentLine (u.word ++ y :: more)) = .ok none
  rw [line, line']
  exact Delimiter.ofDirective?_longer letters word solid'

/-- A line that is no directive before one gap is none before the other. -/
theorem directive?_none_before (here : Breaks a) (there : Breaks b)
    (ahead : u.cursor.ahead = u.word ++ (w ++ a)) (looks : u.Overlooks x w a b)
    (may : u.mayDirect x = true) (plain : u.directive? = .ok none) :
    (u.facing (u.word ++ (w ++ b))).directive? = .ok none := by
  refine directive?_none_of_solid ahead may plain ?_
  intro c head solid
  cases w with
  | cons z w => exact ⟨c, head, solid⟩
  | nil =>
    obtain ⟨z, more, rfl, -⟩ := here.cons
    obtain ⟨y, more', rfl, -⟩ := there.cons
    obtain rfl := Option.some.inj head
    have same := looks.directive rfl may
    refine ⟨y, rfl, ?_⟩
    simpa [solid] using same

/-- The word ahead, and what it leads to, is the same before both gaps. -/
theorem seesWord_before (grammar : u.dialect.blocks ≠ .oracle) (gaps : u.dialect.EndsAtGaps)
    (kind : u.context.kind = u.dialect.kind) (here : Breaks a) (there : Breaks b)
    (ahead : u.cursor.ahead = u.word ++ (w ++ a))
    (starts : ∀ r, r ≠ [] → w <:+ r → r <:+ u.word ++ w →
      u.context.delimiter.startsAt (r ++ b) = u.context.delimiter.startsAt (r ++ a))
    (line : '\n' ∈ w ∨ (u.mayDirect x = true → u.directive? = .ok none))
    (looks : u.Overlooks x w a b) : u.SeesWord x (u.word ++ (w ++ b)) := by
  have foresees : u.Foresees x w a b := by
    refine ⟨looks.transaction, ?_⟩
    intro keywords sought
    obtain ⟨blocks, text, inside, clause, rfl⟩ := BlockGrammar.sought?_eq_some grammar sought
    exact looks.search blocks text inside clause
  rcases line with feed | plain
  · refine seesWord_of_stops (there.stops gaps) kind ahead starts (Or.inl ?_) foresees
    rw [currentLine_of_mem feed, currentLine_of_mem feed]
  · refine seesWord_of_stops (there.stops gaps) kind ahead starts (Or.inr ?_) foresees
    exact fun may => ⟨plain may, directive?_none_before here there ahead looks may (plain may)⟩

/-- The session stands before `v`, behind which a gap begins in both texts. The delimiter is found
in the same places of `v`. -/
structure Outlook (s : Session) (v a b : List Char) : Prop where
  inline : s.Inline
  gaps : s.dialect.EndsAtGaps
  here : Breaks a
  there : Breaks b
  ahead : s.cursor.ahead = v ++ a
  nonempty : v ≠ []
  dash : v = ['-'] → b.head? ≠ some '-'
  starts : ∀ r, r ≠ [] → r <:+ v → ('\n' ∈ v → '\n' ∈ r) →
    s.context.delimiter.startsAt (r ++ b) = s.context.delimiter.startsAt (r ++ a)

theorem Outlook.cons (out : s.Outlook v a b) (split : s.cursor.ahead = c :: rest) :
    ∃ r, v = c :: r ∧ rest = r ++ a := by
  obtain ⟨x, r, rfl⟩ := List.exists_cons_of_ne_nil out.nonempty
  have parts := out.ahead
  rw [split, List.cons_append] at parts
  obtain ⟨rfl, rfl⟩ := List.cons.inj parts
  exact ⟨r, rfl, rfl⟩

/-- A gap is seen alike, if it is no comment that goes on up to the end of `v`. -/
theorem Outlook.gap? (out : s.Outlook v a b)
    (comment : ∀ extent, s.gap? draft c = some (.comment extent) →
      ∃ n, extent = .closed n ∧ n < v.length) :
    (s.facing (v ++ b)).gap? draft c = s.gap? draft c := by
  have whole := out.starts v out.nonempty List.suffix_rfl id
  have active : (s.facing (v ++ b)).delimiterLength? = s.delimiterLength? := by
    simp only [delimiterLength?, facing, out.inline.active, out.ahead, whole]
    rfl
  have standing : ∀ z : Session, z.dialect = s.dialect → z.atTerminator = false := by
    intro z same
    rw [atTerminator, same, out.inline.dialect.terminator]
    rfl
  by_cases blank : isBlank c = true
  · rw [Session.gap?, Session.gap?, if_pos blank, if_pos blank]
  cases found : s.delimiterLength? with
  | some n => simp only [Session.gap?, blank, active, found]
  | none =>
    have read : ∀ z : Session, z.dialect = s.dialect → z.delimiterLength? = none →
        z.gap? draft c = (s.dialect.comment? z.cursor.ahead).map .comment := by
      intro z same none
      simp only [Session.gap?, blank, none, standing z same, same]
      simp
    have here := read s rfl found
    have there := read (s.facing (v ++ b)) rfl (active.trans found)
    rw [out.ahead] at here
    rw [there, here]
    change (s.dialect.comment? (v ++ b)).map Gap.comment = _
    congr 1
    cases plain : s.dialect.comment? (v ++ a) with
    | none =>
      exact (out.there.stops out.gaps).comment?_none out.nonempty out.dash plain
    | some extent =>
      obtain ⟨n, rfl, fits⟩ := comment extent (by rw [here, plain]; rfl)
      exact Dialect.Stops.comment?_closed out.nonempty plain (Nat.le_of_lt fits)
        (fun _ long => absurd long (Nat.ne_of_lt fits))

theorem Outlook.sees_gap {g : Gap} (out : s.Outlook v a b) (split : s.cursor.ahead = c :: rest)
    (found : s.gap? draft c = some g)
    (comment : ∀ extent, g = .comment extent → ∃ n, extent = .closed n ∧ n < v.length) :
    s.Sees draft (v ++ b) := by
  have same : (s.facing (v ++ b)).gap? draft c = s.gap? draft c := by
    refine out.gap? ?_
    intro extent other
    rw [found] at other
    exact comment extent (Option.some.inj other)
  obtain ⟨r, rfl, rfl⟩ := out.cons split
  refine ⟨by rw [split]; rfl, ?_, ?_⟩
  · rintro x ⟨⟩
    exact same
  · rintro x ⟨⟩ solid
    rw [found] at solid
    cases solid

theorem Outlook.sees_token (out : s.Outlook v a b) (split : s.cursor.ahead = c :: rest)
    (solid : s.gap? draft c = none) (begun : s.begin draft = .ok (u, x))
    (text : ∀ extent, u.dialect.token u.context.startsWord c rest = .text extent →
      ∃ n, extent = .closed n ∧ n ≤ v.length)
    (word : u.dialect.token u.context.startsWord c rest = .word → u.SeesWord x (v ++ b)) :
    s.Sees draft (v ++ b) := by
  have same : (s.facing (v ++ b)).gap? draft c = s.gap? draft c := by
    refine out.gap? ?_
    intro extent other
    rw [solid] at other
    cases other
  obtain ⟨r, rfl, rfl⟩ := out.cons split
  refine ⟨by rw [split]; rfl, ?_, ?_⟩
  · rintro y ⟨⟩
    exact same
  · rintro y ⟨⟩ _ u' x' begun'
    rw [begun] at begun'
    cases begun'
    have gaps : u.dialect.EndsAtGaps := begin_dialect begun ▸ out.gaps
    exact seesToken_of_stops (out.here.stops gaps) (out.there.stops gaps)
      ((begin_cursor begun).symm ▸ split) text word

/-- The word ahead is seen alike. Its line either ends in `v`, or is no directive. -/
theorem Outlook.sees_word (out : s.Outlook v a b) (typed : s.Typed draft)
    (split : s.cursor.ahead = c :: rest) (solid : s.gap? draft c = none)
    (begun : s.begin draft = .ok (u, x))
    (token : u.dialect.token u.context.startsWord c rest = .word)
    (left : u.afterWord.cursor.ahead = w ++ a)
    (line : '\n' ∈ w ∨ (u.mayDirect x = true → u.directive? = .ok none))
    (looks : u.Overlooks x w a b) : s.Sees draft (v ++ b) := by
  have place := begin_cursor begun
  have active : u.context.delimiter = s.context.delimiter := by
    obtain ⟨kind, rfl⟩ := begin_ok begun
    rfl
  have there : u.cursor.ahead = u.word ++ (w ++ a) := by
    rw [← left]
    exact u.ahead_eq_word_append
  have text : v = u.word ++ w := by
    rw [place, out.ahead, ← List.append_assoc] at there
    exact List.append_cancel_right there
  refine out.sees_token split solid begun ?_ ?_
  · intro extent other
    rw [token] at other
    cases other
  · intro _
    rw [text, List.append_assoc]
    refine seesWord_before ?_ ?_ ?_ out.here out.there there ?_ line looks
    · rw [begin_dialect begun]
      exact out.inline.dialect.grammar
    · rw [begin_dialect begun]
      exact out.gaps
    · rw [typed_begin typed begun, begin_dialect begun]
    · intro r nonempty within reaches
      rw [active]
      refine out.starts r nonempty (text ▸ reaches) ?_
      intro feed
      rw [text] at feed
      have oneLine : '\n' ∉ u.word := u.context.lineFeed_not_mem_wordAhead u.cursor.ahead
      exact within.subset ((List.mem_append.mp feed).resolve_left oneLine)

/-- A directive that is applied leaves the end of its line. -/
theorem feed_of_direct {d : Delimiter} (rest : (u.direct d).cursor.ahead = w ++ a)
    (nonempty : w ≠ []) : '\n' ∈ w := by
  obtain ⟨y, more, rfl⟩ := List.exists_cons_of_ne_nil nonempty
  rw [direct_ahead] at rest
  rcases lineEnds_drop_lineLength u.cursor.ahead with none | ⟨tail, feed⟩
  · rw [none] at rest
    cases rest
  · rw [feed, List.cons_append] at rest
    rw [(List.cons.inj rest).1]
    exact List.mem_cons_self

/-- A step that ends before both gaps, or with a token right there, sees the same in both texts,
if the looks do. -/
theorem step_sees (out : s.Outlook (v ++ w) a b) (typed : s.Typed draft) (h : Step s draft t e)
    (rest : t.cursor.ahead = w ++ a) (last : w = [] → s.Solid draft ∧ e ≠ none)
    (looks : ∀ u x w, s.Scans draft u x → u.afterWord.cursor.ahead = w ++ a →
      u.Overlooks x w a b) : s.Sees draft (v ++ w ++ b) := by
  have moves : ∀ {n}, t.cursor = s.cursor.skip n → n = v.length := by
    intro n moved
    refine length_of_skip moved ?_ rest (List.append_ne_nil_of_right_ne_nil w out.here.ne_nil)
    rw [out.ahead, List.append_assoc]
  have size : (v ++ w).length = v.length + w.length := List.length_append
  cases h with
  | @gap _ c _ g n split found length =>
    have long := moves (n := n) rfl
    refine out.sees_gap split found ?_
    rintro extent rfl
    have inside : w ≠ [] := by
      intro none
      rw [(last none).1 c (by rw [split]; rfl) _ found] at length
      cases length
    have pos := List.length_pos_iff.mpr inside
    cases extent with
    | unclosed => cases length
    | closed k =>
      cases length
      exact ⟨_, rfl, by omega⟩
  | delimiter split found => exact out.sees_gap split found nofun
  | @text _ _ _ u _ n split solid begun token =>
    have long := moves (n := n) (by rw [skip_cursor, begin_cursor begun])
    refine out.sees_token split solid begun ?_ ?_
    · intro extent same
      rw [token] at same
      cases same
      exact ⟨n, rfl, by omega⟩
    · rw [token]
      exact nofun
  | symbol split solid begun token =>
    refine out.sees_token split solid begun ?_ ?_
    · rw [token]
      exact nofun
    · rw [token]
      exact nofun
  | @directive _ c _ u x d split solid begun token may line =>
    have inside : w ≠ [] := fun none => (last none).2 rfl
    have feed := feed_of_direct rest inside
    obtain ⟨r, left⟩ : ∃ r, u.afterWord.cursor.ahead = r ++ (w ++ a) := by
      have skipped : (u.direct d).cursor.ahead <:+ u.afterWord.cursor.ahead := by
        rw [direct]
        dsimp only
        rw [Cursor.skipLine, Cursor.skip_ahead]
        exact List.drop_suffix _ _
      obtain ⟨r, split⟩ := skipped
      exact ⟨r, by rw [← rest, split]⟩
    rw [← List.append_assoc] at left
    have scans : s.Scans draft u x := ⟨begun, by rw [item?_of_begin split solid begun, token]⟩
    exact out.sees_word typed split solid begun token left
      (Or.inl (List.mem_append_right r feed)) (looks u x _ scans left)
  | @word _ _ c _ u _ x split solid begun token plain taken =>
    obtain ⟨-, blocks, lastClosed, warnings, rfl⟩ := takeWord_more taken
    rw [classify_eq] at rest
    have scans : s.Scans draft u x := ⟨begun, by rw [item?_of_begin split solid begun, token]⟩
    exact out.sees_word typed split solid begun token rest (Or.inr plain) (looks u x w scans rest)

end Session

end SqlBoundary
