import SqlBoundary.Proofs.Append
import SqlBoundary.Proofs.Segment

/-!
# More text to come

What a session does with the text ahead of it, it also does if more text comes after that.
This needs the text ahead to end with a line feed, and only holds as long as a statement
that has begun is not cut short: after its last word, there is always another token to see.
-/

namespace SqlBoundary

open Text

def Cursor.extend (cur : Cursor) (after : List Char) : Cursor :=
  { cur with ahead := cur.ahead ++ after }

def Draft.extend (d : Draft) (after : List Char) : Draft :=
  { d with start := d.start.extend after }

/-- The session if this text comes after the text ahead. -/
def Session.extend (s : Session) (after : List Char) : Session :=
  { s with cursor := s.cursor.extend after }

variable (after : List Char)

theorem Cursor.skip_extend {n : Nat} {cur : Cursor} (h : n ≤ cur.ahead.length) :
    (cur.extend after).skip n = (cur.skip n).extend after := by
  induction n generalizing cur with
  | zero => rfl
  | succ n ih =>
    cases ahead : cur.ahead with
    | nil =>
      rw [ahead] at h
      exact absurd h (Nat.not_succ_le_zero n)
    | cons c rest =>
      have one : (cur.extend after).advance = cur.advance.extend after := by
        simp [advance, extend, ahead]
      rw [skip, skip, one, ih]
      rw [ahead] at h
      rw [advance_ahead, ahead]
      exact Nat.le_of_succ_le_succ h

theorem Cursor.upTo_extend {start stop : Cursor}
    (h : stop.index - start.index ≤ start.ahead.length) :
    (start.extend after).upTo (stop.extend after) = start.upTo stop :=
  List.take_append_of_le_length h

namespace Session

variable {s t u : Session} {draft e f : Option Draft} {d : Draft}

/-- What comes after the text ahead of the session cannot be seen from within it. -/
structure Detached (s : Session) : Prop where
  ends : s.cursor.ahead = [] ∨ EndsLine s.cursor.ahead
  delimiter : '\n' ∉ s.context.delimiter.text.toList
  script : '\n' ∉ s.scriptDelimiter.text.toList
  closers : ∀ pair ∈ s.dialect.identifierQuotes, pair.2 ≠ '\n'
  grammar : s.dialect.blocks = .common ∨
    s.dialect.blocks = .mysql ∧ ¬ ['I', 'F'] <:+: upper s.cursor.ahead

@[simp] theorem extend_ahead (s : Session) :
    (s.extend after).cursor.ahead = s.cursor.ahead ++ after := rfl

@[simp] theorem extend_context (s : Session) : (s.extend after).context = s.context := rfl

@[simp] theorem extend_dialect (s : Session) : (s.extend after).dialect = s.dialect := rfl

theorem skip_extend {n : Nat} (h : n ≤ s.cursor.ahead.length) :
    (s.extend after).skip n = (s.skip n).extend after := by
  simp only [skip, extend, Cursor.skip_extend after h]

theorem begin_extend (begun : s.begin draft = .ok (u, d)) :
    (s.extend after).begin (draft.map (·.extend after)) =
      .ok (u.extend after, d.extend after) := by
  rcases begin_eq_ok_iff.mp begun with ⟨rfl, rfl⟩ | ⟨rfl, known, rfl, rfl⟩
  · rfl
  · exact begin_eq_ok_iff.mpr (Or.inr ⟨rfl, known, rfl, rfl⟩)

theorem atLineOf_extend (x : Delimiter) (ends : EndsLine s.cursor.ahead) :
    (s.extend after).cursor.atLineOf x = s.cursor.atLineOf x := by
  simp only [Cursor.atLineOf, extend_ahead, Delimiter.fillsLine_append after ends]
  rfl

theorem delimiterLength?_extend (h : s.Detached) (ends : EndsLine s.cursor.ahead) :
    (s.extend after).delimiterLength? = s.delimiterLength? := by
  have line := atLineOf_extend after s.context.delimiter ends
  have starts := Delimiter.startsAt_append after ends h.delimiter
  have length := lineLength_append after ends
  simp only [delimiterLength?, extend_context, extend_ahead, line, starts, length]
  rfl

theorem atTerminator_extend (ends : EndsLine s.cursor.ahead) :
    (s.extend after).atTerminator = s.atTerminator := by
  simp only [atTerminator, extend_dialect]
  cases s.dialect.standaloneTerminator with
  | none => rfl
  | some x => exact atLineOf_extend after x ends

/-- A gap is the same unless it is a comment that is not closed yet. -/
theorem gap?_extend {c : Char} (h : s.Detached) (ends : EndsLine s.cursor.ahead)
    (closed : ∀ construct passed, s.gap? draft c ≠ some (.comment (.unclosed construct passed))) :
    (s.extend after).gap? (draft.map (·.extend after)) c = s.gap? draft c := by
  have comment : s.gap? draft c = (s.dialect.comment? s.cursor.ahead).map .comment →
      s.dialect.comment? (s.cursor.ahead ++ after) = s.dialect.comment? s.cursor.ahead := by
    intro same
    refine Dialect.comment?_append after ends ?_
    intro construct passed found
    exact closed construct passed (by rw [same, found]; rfl)
  rw [gap?] at comment ⊢
  rw [gap?, delimiterLength?_extend after h ends, atTerminator_extend after ends, extend_ahead,
    lineLength_append after ends, Option.isNone_map]
  split
  · rfl
  · next solid =>
    rw [if_neg solid] at comment
    split
    · rfl
    · next unended =>
      rw [unended] at comment
      split
      · rfl
      · next other =>
        dsimp only at comment
        rw [if_neg other] at comment
        rw [extend_dialect, comment rfl]

theorem length?_le {c : Char} {rest : List Char} {g : Gap} {n : Nat}
    (ahead : s.cursor.ahead = c :: rest) (found : s.gap? draft c = some g)
    (length : g.length? = some n) : n ≤ s.cursor.ahead.length := by
  cases g with
  | blank =>
    cases length
    rw [ahead]
    exact Nat.succ_le_succ (Nat.zero_le _)
  | delimiter => cases length
  | terminator m =>
    cases length
    obtain ⟨-, -, -, rfl⟩ := terminator_of_gap? found
    exact lineLength_le s.cursor.ahead
  | comment extent =>
    cases extent with
    | closed m =>
      cases length
      exact Dialect.comment?_le (comment_of_gap? found).2
    | unclosed => cases length

theorem delimiter_le {c : Char} {n : Nat} (found : s.gap? draft c = some (.delimiter n)) :
    n ≤ s.cursor.ahead.length := by
  obtain ⟨-, ⟨-, -, rfl⟩ | ⟨-, starts, rfl⟩⟩ :=
    delimiterLength?_eq_some (delimiter_of_gap? found).2
  · exact lineLength_le s.cursor.ahead
  · simp only [Delimiter.startsAt, Bool.and_eq_true, List.isPrefixOf_iff_prefix] at starts
    exact starts.2.length_le

theorem word_extend (h : s.Detached) (ends : EndsLine s.cursor.ahead) :
    (s.extend after).word = s.word :=
  Context.wordAhead_append after ends h.delimiter

theorem wordText_extend (h : s.Detached) (ends : EndsLine s.cursor.ahead) :
    (s.extend after).wordText = s.wordText := by
  rw [wordText, wordText, word_extend after h ends]

theorem endsLine_afterWord (ends : EndsLine s.cursor.ahead) :
    EndsLine s.afterWord.cursor.ahead := by
  rw [afterWord, skip_cursor, Cursor.skip_ahead]
  exact ends.rest (Context.wordAhead_prefix s.context _)
    (Context.lineFeed_not_mem_wordAhead s.context _)

theorem afterWord_extend (h : s.Detached) (ends : EndsLine s.cursor.ahead) :
    (s.extend after).afterWord = s.afterWord.extend after := by
  rw [afterWord, word_extend after h ends]
  exact skip_extend after (Context.wordAhead_prefix s.context _).length_le

theorem mayDirect_extend (h : s.Detached) (ends : EndsLine s.cursor.ahead) :
    (s.extend after).mayDirect (d.extend after) = s.mayDirect d := by
  rw [mayDirect, mayDirect, wordText_extend after h ends]
  rfl

theorem directive?_extend (ends : EndsLine s.cursor.ahead) :
    (s.extend after).directive? = s.directive? := by
  rw [directive?, directive?, extend_ahead, currentLine_append after ends]

theorem direct_extend (x : Delimiter) (h : s.Detached) (ends : EndsLine s.cursor.ahead) :
    (s.extend after).direct x = (s.direct x).extend after := by
  have line : (s.afterWord.cursor.extend after).skipLine =
      s.afterWord.cursor.skipLine.extend after := by
    simp only [Cursor.skipLine]
    rw [Cursor.extend, lineLength_append after (endsLine_afterWord ends)]
    exact Cursor.skip_extend after (lineLength_le _)
  simp only [direct, afterWord_extend after h ends]
  simp only [extend, line]

theorem closeBlock_extend (next : Option String) :
    (s.extend after).closeBlock (d.extend after) next =
      (s.closeBlock d next).map (·.extend after) := by
  cases blocks : s.context.blocks with
  | nil =>
    rw [closeBlock_nil blocks, closeBlock_nil (s := s.extend after) blocks]
    cases alone : d.leading.isEmpty && s.dialect.standaloneEnd with
    | true => simp [Draft.extend, alone, Except.map]
    | false => simp [Draft.extend, alone, Except.map]
  | cons initiator outer =>
    rw [closeBlock_cons blocks, closeBlock_cons (s := s.extend after) blocks]
    rfl

theorem classify_extend (text : String) :
    (s.extend after).classify (d.extend after) text = (s.classify d text).extend after := by
  rw [classify_eq, classify_eq]
  rfl

theorem openBlock_extend {text : String} (next : Option String)
    (h : s.dialect.blocks = .common ∨ s.dialect.blocks = .mysql ∧ text ≠ "IF") :
    (s.extend after).openBlock (d.extend after) text next =
      (s.openBlock d text next).extend after := by
  have same : (s.extend after).dialect.blocks.opens
      ((s.extend after).asWord (d.extend after) text next) (s.extend after).context =
      s.dialect.blocks.opens (s.asWord d text next) s.context :=
    BlockGrammar.opens_ahead (w := s.asWord d text next) s.context (s.cursor.ahead ++ after) h
  rw [openBlock_eq, openBlock_eq, same]
  rfl

theorem takeWord_extend {text : String} (ends : EndsLine s.cursor.ahead)
    (solid : ∃ c ∈ s.cursor.ahead, isBlank c = false)
    (h : s.dialect.blocks = .common ∨ s.dialect.blocks = .mysql ∧ text ≠ "IF")
    (taken : s.takeWord d text = .more t e) :
    (s.extend after).takeWord (d.extend after) text =
      .more (t.extend after) (e.map (·.extend after)) := by
  have next : (s.extend after).context.tokenAhead? (s.extend after).cursor.ahead =
      s.context.tokenAhead? s.cursor.ahead :=
    Context.tokenAhead?_append after (Or.inr ends) solid
  rw [takeWord] at taken ⊢
  rw [next, closeBlock_extend, openBlock_extend after _ h]
  split
  · next end_ =>
    rw [if_pos end_] at taken
    cases closed : s.closeBlock d (s.context.tokenAhead? s.cursor.ahead) with
    | error fault =>
      rw [closed] at taken
      cases taken
    | ok v =>
      rw [closed] at taken
      cases taken
      simp only [Except.map, classify_extend]
      rfl
  · next other =>
    rw [if_neg other] at taken
    cases taken
    rw [classify_extend]
    rfl

theorem mem_of_mem_trim {cs : List Char} {c : Char} (h : c ∈ trim cs) : c ∈ cs := by
  have stripped : c ∈ trimStart cs := by
    obtain ⟨blanks, split, -⟩ := trimEnd_append_blanks (trimStart cs)
    rw [split]
    exact List.mem_append_left blanks h
  exact (List.dropWhile_suffix isBlank).subset stripped

/-- A directive is read from one line. -/
theorem oneLine_of_directive? {x : Delimiter} (h : s.directive? = .ok (some x)) :
    '\n' ∉ x.text.toList := by
  intro mem
  refine lineFeed_not_mem_currentLine s.cursor.ahead ?_
  rw [directive?, Delimiter.ofDirective?] at h
  dsimp only at h
  split at h
  · split at h
    · cases h
    · obtain rfl := Option.some.inj (Except.ok.inj h)
      rw [Delimiter.inline, String.toList_ofList] at mem
      exact mem_of_mem_trim (List.mem_of_mem_drop (mem_of_mem_trim mem))
  · cases h

theorem Detached.of_suffix (h : s.Detached) (dialect : t.dialect = s.dialect)
    (rest : t.cursor.ahead <:+ s.cursor.ahead) (delimiter : '\n' ∉ t.context.delimiter.text.toList)
    (script : '\n' ∉ t.scriptDelimiter.text.toList) : t.Detached where
  ends := by
    rcases h.ends with empty | ends
    · rw [empty] at rest
      exact Or.inl (List.suffix_nil.mp rest)
    · exact ends.suffix rest
  delimiter := delimiter
  script := script
  closers := by
    rw [dialect]
    exact h.closers
  grammar := by
    rw [dialect]
    rcases h.grammar with common | ⟨mysql, absent⟩
    · exact Or.inl common
    · refine Or.inr ⟨mysql, ?_⟩
      intro there
      exact absent (there.trans (rest.map Char.toUpper).isInfix)

theorem detached_begin (h : s.Detached) (begun : s.begin draft = .ok (u, d)) : u.Detached := by
  obtain ⟨kind, rfl⟩ := begin_ok begun
  exact h.of_suffix rfl List.suffix_rfl h.delimiter h.script

theorem step_suffix (h : Step s draft t e) : t.cursor.ahead <:+ s.cursor.ahead := by
  obtain ⟨n, moves⟩ := step_skip h
  rw [moves, Cursor.skip_ahead]
  exact List.drop_suffix n _

theorem step_detached (h : Step s draft t e) (hd : s.Detached) : t.Detached := by
  have dialect := step_dialect h
  have rest := step_suffix h
  cases h with
  | gap => exact hd.of_suffix dialect rest hd.delimiter hd.script
  | delimiter => exact hd.of_suffix dialect rest hd.script hd.script
  | text _ _ begun =>
    obtain ⟨kind, rfl⟩ := begin_ok begun
    exact hd.of_suffix dialect rest hd.delimiter hd.script
  | symbol _ _ begun =>
    obtain ⟨kind, rfl⟩ := begin_ok begun
    rw [countParen_eq] at dialect rest ⊢
    exact hd.of_suffix dialect rest hd.delimiter hd.script
  | directive _ _ _ _ _ line =>
    have oneLine := oneLine_of_directive? line
    exact hd.of_suffix dialect rest oneLine oneLine
  | @word _ _ _ _ _ _ d _ _ begun _ _ taken =>
    obtain ⟨kind, rfl⟩ := begin_ok begun
    obtain ⟨-, blocks, lastClosed, warnings, rfl⟩ := takeWord_more taken
    rw [classify_eq] at dialect rest ⊢
    refine hd.of_suffix dialect rest ?_ hd.script
    dsimp only [Context.setDelimiter]
    cases asked : d.asks _ _ with
    | none => exact hd.delimiter
    | some x =>
      obtain ⟨-, rfl⟩ := asks_eq_some asked
      rw [Option.getD_some]
      decide

/-- If a statement has begun, something of it or its delimiter is still to come in the text
ahead. -/
def Continues (s : Session) (draft : Option Draft) : Prop :=
  draft = none ∨ ∃ c ∈ s.cursor.ahead, isBlank c = false

theorem continues_of_solid {c : Char} {rest : List Char} (ahead : s.cursor.ahead = c :: rest)
    (solid : s.gap? draft c = none) : s.Continues draft :=
  Or.inr ⟨c, by rw [ahead]; exact List.mem_cons_self, (gap?_eq_none_iff.mp solid).1⟩

theorem continues_of_step (h : Step s draft t e) (later : t.Continues e) : s.Continues draft := by
  rcases later with rfl | ⟨c, mem, solid⟩
  · generalize none : none = e at h
    cases h with
    | gap => exact Or.inl none.symm
    | delimiter => exact Or.inl rfl
    | text ahead solid => exact continues_of_solid ahead solid
    | symbol ahead solid => exact continues_of_solid ahead solid
    | directive ahead solid => exact continues_of_solid ahead solid
    | word ahead solid => exact continues_of_solid ahead solid
  · exact Or.inr ⟨c, (step_suffix h).subset mem, solid⟩

theorem continues_of_passes (h : Passes s draft u f) (later : u.Continues f) :
    s.Continues draft := by
  induction h with
  | refl => exact later
  | step first _ ih => exact continues_of_step first (ih later)

theorem grammar_word (h : s.Detached) :
    s.dialect.blocks = .common ∨ s.dialect.blocks = .mysql ∧ s.wordText ≠ "IF" := by
  rcases h.grammar with common | ⟨mysql, absent⟩
  · exact Or.inl common
  · refine Or.inr ⟨mysql, ?_⟩
    intro text
    have word : upper s.word = ['I', 'F'] := by
      have := congrArg String.toList text
      rwa [wordText, String.toList_ofList] at this
    refine absent (word ▸ ?_)
    exact ((Context.wordAhead_prefix s.context _).map Char.toUpper).isInfix

theorem Detached.endsLine {c : Char} {rest : List Char} (h : s.Detached)
    (ahead : s.cursor.ahead = c :: rest) : EndsLine s.cursor.ahead := by
  rcases h.ends with empty | ends
  · rw [ahead] at empty
    cases empty
  · exact ends

theorem cons_extend {c : Char} {rest : List Char} (ahead : s.cursor.ahead = c :: rest) :
    (s.extend after).cursor.ahead = c :: (rest ++ after) := by
  rw [extend_ahead, ahead, List.cons_append]

theorem solid_extend {c : Char} {rest : List Char} (h : s.Detached)
    (ahead : s.cursor.ahead = c :: rest) (solid : s.gap? draft c = none) :
    (s.extend after).gap? (draft.map (·.extend after)) c = none := by
  rw [gap?_extend after h (h.endsLine ahead), solid]
  intro construct passed same
  rw [solid] at same
  cases same

theorem delimiter_extend {c : Char} {rest : List Char} {n : Nat} (h : s.Detached)
    (ahead : s.cursor.ahead = c :: rest) (found : s.gap? draft c = some (.delimiter n)) :
    (s.extend after).gap? (draft.map (·.extend after)) c = some (.delimiter n) := by
  rw [gap?_extend after h (h.endsLine ahead), found]
  intro construct passed same
  rw [found] at same
  cases same

theorem token_extend {c : Char} {rest : List Char} {token : Token} (h : s.Detached)
    (ahead : s.cursor.ahead = c :: rest) (solid : s.gap? draft c = none)
    (begun : s.begin draft = .ok (u, d))
    (found : u.dialect.token u.context.startsWord c rest = token)
    (closed : ∀ construct passed, token ≠ .text (.unclosed construct passed)) :
    (u.extend after).dialect.token (u.extend after).context.startsWord c (rest ++ after) =
      token := by
  have ends := h.endsLine ahead
  rw [ahead] at ends
  have closers := (detached_begin h begun).closers
  rw [extend_dialect, extend_context, Dialect.token_append after ends
    (gap?_eq_none_iff.mp solid).1 closers, found]
  rw [found]
  exact closed

theorem countParen_extend (c : Char) :
    (s.extend after).countParen c = (s.countParen c).extend after := by
  rw [countParen_eq, countParen_eq]
  rfl

theorem afterSymbol_extend {c : Char} {rest : List Char} (ends : EndsLine rest) :
    (d.extend after).afterSymbol c (rest ++ after) = (d.afterSymbol c rest).extend after := by
  simp only [Draft.afterSymbol, Draft.extend, head?_append_line after ends]

/-- A step that does not come to the end of the text ahead goes on the same with more text
to come. -/
theorem step_extend (h : Step s draft t e) (hd : s.Detached) (later : t.Continues e) :
    Step (s.extend after) (draft.map (·.extend after)) (t.extend after)
      (e.map (·.extend after)) := by
  cases h with
  | @gap _ c rest g n ahead found length =>
    have same : (s.extend after).gap? (draft.map (·.extend after)) c = some g := by
      rw [gap?_extend after hd (hd.endsLine ahead), found]
      rintro construct passed same
      rw [found] at same
      cases same
      cases length
    rw [← skip_extend after (length?_le ahead found length)]
    exact .gap (cons_extend after ahead) same length
  | @delimiter c rest n ahead found =>
    have same : (s.extend after).gap? none c = some (.delimiter n) :=
      delimiter_extend after hd ahead found
    have step := Step.delimiter (cons_extend after ahead) same
    rw [skip_extend after (delimiter_le found)] at step
    exact step
  | @text _ c rest u d n ahead solid begun token =>
    have length : n ≤ u.cursor.ahead.length := by
      rw [begin_cursor begun, ahead]
      exact Dialect.token_le token
    have same := token_extend after hd ahead solid begun token (by rintro _ _ ⟨⟩)
    rw [← skip_extend after length]
    exact .text (cons_extend after ahead) (solid_extend after hd ahead solid)
      (begin_extend after begun) same
  | @symbol _ c rest u d ahead solid begun token =>
    have length : 1 ≤ u.cursor.ahead.length := by
      rw [begin_cursor begun, ahead]
      exact Nat.succ_le_succ (Nat.zero_le _)
    have ends : EndsLine rest := by
      have ends := hd.endsLine ahead
      rw [ahead] at ends
      exact ends.tail (ne_lineFeed_of_solid (gap?_eq_none_iff.mp solid).1)
    have same := token_extend after hd ahead solid begun token (by rintro _ _ ⟨⟩)
    have step := Step.symbol (cons_extend after ahead) (solid_extend after hd ahead solid)
      (begin_extend after begun) same
    rw [skip_extend after length, countParen_extend, afterSymbol_extend after ends] at step
    exact step
  | @directive _ c rest u d x ahead solid begun token may line =>
    have ends : EndsLine u.cursor.ahead := by
      rw [begin_cursor begun]
      exact hd.endsLine ahead
    have detached := detached_begin hd begun
    have same := token_extend after hd ahead solid begun token (by rintro _ _ ⟨⟩)
    have step := Step.directive (cons_extend after ahead) (solid_extend after hd ahead solid)
      (begin_extend after begun) same ((mayDirect_extend after detached ends).trans may)
      ((directive?_extend after ends).trans line)
    rw [direct_extend after x detached ends] at step
    exact step
  | @word _ _ c rest u _ d ahead solid begun token plain taken =>
    have ends : EndsLine u.cursor.ahead := by
      rw [begin_cursor begun]
      exact hd.endsLine ahead
    have detached := detached_begin hd begun
    have same := token_extend after hd ahead solid begun token (by rintro _ _ ⟨⟩)
    have more : ∃ c ∈ u.afterWord.cursor.ahead, isBlank c = false := by
      obtain ⟨rfl, blocks, lastClosed, warnings, rfl⟩ := takeWord_more taken
      rw [classify_eq] at later
      rcases later with none | more
      · cases none
      · exact more
    refine .word (cons_extend after ahead) (solid_extend after hd ahead solid)
      (begin_extend after begun) same ?_ ?_
    · rw [mayDirect_extend after detached ends, directive?_extend after ends]
      exact plain
    · rw [afterWord_extend after detached ends, wordText_extend after detached ends]
      exact takeWord_extend after (endsLine_afterWord ends) more (grammar_word detached) taken

theorem passes_extend (h : Passes s draft u f) (hd : s.Detached) (later : u.Continues f) :
    Passes (s.extend after) (draft.map (·.extend after)) (u.extend after)
      (f.map (·.extend after)) := by
  induction h with
  | refl => exact .refl _ _
  | step first rest ih =>
    exact .step (step_extend after first hd (continues_of_passes rest later))
      (ih (step_detached first hd) later)

theorem passes_detached (h : Passes s draft u f) (hd : s.Detached) : u.Detached := by
  induction h with
  | refl => exact hd
  | step first _ ih => exact ih (step_detached first hd)

end Session

end SqlBoundary
