import SqlBoundary.Proofs.Agreement
import SqlBoundary.Proofs.Plain

/-!
# Sessions that differ in place only

Where every delimiter is an inline one, what a pass does is decided by the text ahead and by
nothing that has been passed. Two sessions that differ in their places, in the places where their
drafts were begun and in their warnings do the same, as long as their passes see the same in the
texts ahead of them. With the same text ahead that is so up to the end of the script.
-/

namespace SqlBoundary

open Text Lexeme

namespace Session

variable {s t u s' t' u' : Session} {draft e f draft' e' f' : Option Draft} {d d' : Draft}
variable {c : Char} {rest ahead : List Char}

/-- Nothing has to stand alone on its line to have an effect. -/
structure Inline (s : Session) : Prop where
  active : s.context.delimiter.aloneOnLine = false
  script : s.scriptDelimiter.aloneOnLine = false
  dialect : s.dialect.Steadfast

theorem inline_of_directive? {x : Delimiter} (h : s.directive? = .ok (some x)) :
    x.aloneOnLine = false := by
  rw [directive?, Delimiter.ofDirective?] at h
  dsimp only at h
  split at h
  · split at h
    · cases h
    · rw [← Option.some.inj (Except.ok.inj h)]
      rfl
  · cases h

theorem asks_steadfast {dialect : Dialect} (steadfast : dialect.Steadfast) (d : Draft)
    (text : String) : d.asks dialect.blocks text = none := by
  rw [Option.eq_none_iff_forall_ne_some]
  intro x asked
  exact steadfast.grammar (asks_eq_some asked).1

theorem step_inline (h : Step s draft t e) (inline : s.Inline) : t.Inline := by
  have dialect : t.dialect.Steadfast := step_dialect h ▸ inline.dialect
  cases h with
  | gap => exact ⟨inline.active, inline.script, dialect⟩
  | delimiter => exact ⟨inline.script, inline.script, dialect⟩
  | text _ _ begun =>
    obtain ⟨kind, rfl⟩ := begin_ok begun
    exact ⟨inline.active, inline.script, dialect⟩
  | symbol _ _ begun =>
    obtain ⟨kind, rfl⟩ := begin_ok begun
    rw [countParen_eq] at dialect ⊢
    exact ⟨inline.active, inline.script, dialect⟩
  | directive _ _ _ _ _ line =>
    exact ⟨inline_of_directive? line, inline_of_directive? line, dialect⟩
  | word _ _ begun _ _ taken =>
    obtain ⟨kind, rfl⟩ := begin_ok begun
    obtain ⟨rfl, blocks, lastClosed, warnings, rfl⟩ := takeWord_more taken
    rw [classify_eq] at dialect ⊢
    refine ⟨?_, inline.script, dialect⟩
    have asks := fun text d => asks_steadfast inline.dialect d text
    dsimp only [Context.setDelimiter, afterWord, skip]
    rw [asks]
    exact inline.active

theorem inline_restored (inline : s.Inline) : s.restored.Inline :=
  ⟨inline.script, inline.script, inline.dialect⟩

theorem passes_inline (h : Passes s draft u f) (inline : s.Inline) : u.Inline := by
  induction h with
  | refl => exact inline
  | step first _ ih => exact ih (step_inline first inline)

/-- With `ahead` in place of the text ahead, the word there is the same, and so is what it leads
to. -/
structure SeesWord (u : Session) (d : Draft) (ahead : List Char) : Prop where
  word : (u.facing ahead).word = u.word
  directive : u.mayDirect d = true → (u.facing ahead).directive? = u.directive?
  line : ∀ x, u.mayDirect d = true → u.directive? = .ok (some x) →
    lineLength ahead = lineLength u.cursor.ahead
  opens : u.wordText ≠ "END" →
    u.dialect.blocks.opens ((u.facing ahead).scanned d) u.context =
      u.dialect.blocks.opens (u.scanned d) u.context

/-- With `ahead` in place of the text ahead, the token that begins with `c` is the same. -/
structure SeesToken (u : Session) (d : Draft) (c : Char) (ahead : List Char) : Prop where
  token : u.dialect.token u.context.startsWord c ahead.tail =
    u.dialect.token u.context.startsWord c u.cursor.ahead.tail
  symbol : u.dialect.token u.context.startsWord c u.cursor.ahead.tail = .symbol c →
    d.afterSymbol c ahead.tail = d.afterSymbol c u.cursor.ahead.tail
  word : u.dialect.token u.context.startsWord c u.cursor.ahead.tail = .word → u.SeesWord d ahead

/-- With `ahead` in place of the text ahead, the next pass sees the same. -/
structure Sees (s : Session) (draft : Option Draft) (ahead : List Char) : Prop where
  head : ahead.head? = s.cursor.ahead.head?
  gap : ∀ c ∈ ahead.head?, (s.facing ahead).gap? draft c = s.gap? draft c
  token : ∀ c ∈ ahead.head?, s.gap? draft c = none → ∀ u d, s.begin draft = .ok (u, d) →
    u.SeesToken d c ahead

theorem Sees.refl (s : Session) (draft : Option Draft) : s.Sees draft s.cursor.ahead where
  head := rfl
  gap := fun _ _ => rfl
  token := by
    intro c _ _ u d begun
    obtain ⟨kind, rfl⟩ := begin_ok begun
    exact ⟨rfl, fun _ => rfl, fun _ => ⟨rfl, fun _ => rfl, fun _ _ _ => rfl, fun _ => rfl⟩⟩

/-- The two sessions differ at most in their places, those of their drafts and their warnings. -/
inductive Twins : Session → Option Draft → Session → Option Draft → Prop
  | between (s : Session) (cursor : Cursor) (warnings : List Warning) :
      Twins s none { s with cursor, warnings } none
  | within (s : Session) (d : Draft) (cursor : Cursor) (warnings : List Warning) (start : Cursor) :
      Twins s (some d) { s with cursor, warnings } (some { d with start })

theorem Twins.alike (h : Twins s draft s' draft') : Alike s draft s' draft' := by
  cases h with
  | between => exact ⟨rfl, rfl, rfl, rfl, rfl, rfl, fun _ => rfl, .none⟩
  | within => exact ⟨rfl, rfl, rfl, rfl, rfl, rfl, fun _ => rfl, .some ⟨rfl, rfl⟩⟩

theorem Twins.refl (s : Session) (draft : Option Draft) : Twins s draft s draft := by
  cases draft with
  | none => exact .between s s.cursor s.warnings
  | some d => exact .within s d s.cursor s.warnings d.start

theorem Twins.skip (h : Twins s draft s' draft') (n m : Nat) :
    Twins (s.skip n) draft (s'.skip m) draft' := by
  cases h with
  | between => exact .between (s.skip n) _ _
  | within d => exact .within (s.skip n) d _ _ _

theorem Twins.restored (h : Twins s draft s' draft') :
    Twins s.restored none s'.restored none := by
  cases h with
  | between => exact .between s.restored _ _
  | within => exact .between s.restored _ _

/-- Inline delimiters are found by the text ahead alone. -/
theorem Twins.gap? (h : Twins s draft s' draft') (inline : s.Inline) (c : Char) :
    s'.gap? draft' c = (s.facing s'.cursor.ahead).gap? draft c := by
  have standing : ∀ z : Session, z.dialect = s.dialect → z.atTerminator = false := by
    intro z same
    rw [atTerminator, same, inline.dialect.terminator]
    rfl
  have delimiter : ∀ z : Session, z.context = s.context → z.cursor.ahead = s'.cursor.ahead →
      z.delimiterLength? = (s.facing s'.cursor.ahead).delimiterLength? := by
    intro z context ahead
    have active := inline.active
    simp only [delimiterLength?, context, facing, active, ahead]
    rfl
  cases h with
  | between cursor warnings =>
    have same := delimiter { s with cursor, warnings } rfl rfl
    simp only [Session.gap?, same, standing { s with cursor, warnings } rfl,
      standing (s.facing cursor.ahead) rfl]
    rfl
  | within d cursor warnings start =>
    have same := delimiter { s with cursor, warnings } rfl rfl
    simp only [Session.gap?, same, standing { s with cursor, warnings } rfl,
      standing (s.facing cursor.ahead) rfl]
    rfl

/-- A draft begins in both. -/
theorem Twins.begin (h : Twins s draft s' draft') (begun : s.begin draft = .ok (u, d)) :
    ∃ start, s'.begin draft' =
      .ok ({ u with cursor := s'.cursor, warnings := s'.warnings }, { d with start }) := by
  cases h with
  | between cursor warnings =>
    rcases begin_eq_ok_iff.mp begun with ⟨none, -⟩ | ⟨-, known, rfl, rfl⟩
    · cases none
    · exact ⟨cursor, begin_eq_ok_iff.mpr (Or.inr ⟨rfl, known, rfl, rfl⟩)⟩
  | within x cursor warnings start =>
    rcases begin_eq_ok_iff.mp begun with ⟨held, rfl⟩ | ⟨none, -⟩
    · cases held
      exact ⟨start, rfl⟩
    · cases none

theorem closeBlock_twin {next : Option String} (closed : s.closeBlock d next = .ok t)
    (cursor : Cursor) (warnings : List Warning) (start : Cursor) (next' : Option String) :
    ∃ warnings', closeBlock { s with cursor, warnings } { d with start } next' =
      .ok { t with cursor, warnings := warnings' } := by
  cases blocks : s.context.blocks with
  | nil =>
    rw [closeBlock_nil blocks] at closed
    rw [closeBlock_nil (s := { s with cursor, warnings }) blocks]
    split at closed
    · next alone =>
      cases closed
      exact ⟨warnings, if_pos alone⟩
    · cases closed
  | cons initiator outer =>
    rw [closeBlock_cons blocks] at closed
    cases closed
    exact ⟨_, closeBlock_cons (s := { s with cursor, warnings }) blocks _ _⟩

/-- A word is taken alike, if it opens a block in both or in neither. -/
theorem takeWord_twin {text : String} (taken : s.takeWord d text = .more t e) (cursor : Cursor)
    (warnings : List Warning) (start : Cursor)
    (opens : text ≠ "END" →
      s.dialect.blocks.opens (asWord { s with cursor, warnings } d text
        (s.context.tokenAhead? cursor.ahead)) s.context =
      s.dialect.blocks.opens (s.asWord d text (s.context.tokenAhead? s.cursor.ahead)) s.context) :
    ∃ warnings', takeWord { s with cursor, warnings } { d with start } text =
        .more { t with cursor, warnings := warnings' } (some { d.afterWord text with start }) ∧
      e = some (d.afterWord text) := by
  rw [takeWord] at taken
  rw [takeWord]
  dsimp only at taken ⊢
  split at taken
  · next ending =>
    rw [if_pos ending]
    cases closed : s.closeBlock d (s.context.tokenAhead? s.cursor.ahead) with
    | error fault =>
      rw [closed] at taken
      cases taken
    | ok v =>
      rw [closed] at taken
      obtain ⟨warnings', same⟩ := closeBlock_twin closed cursor warnings start
        (s.context.tokenAhead? cursor.ahead)
      rw [same]
      cases taken
      dsimp only
      rw [classify_eq, classify_eq]
      exact ⟨warnings', rfl, rfl⟩
  · next other =>
    rw [if_neg other]
    have opens := opens (by simpa using other)
    cases taken
    refine ⟨warnings, ?_, rfl⟩
    rw [classify_eq, classify_eq, openBlock_eq, openBlock_eq]
    have same : s.dialect.blocks.opens (asWord { s with cursor, warnings } { d with start } text
        (s.context.tokenAhead? cursor.ahead)) s.context =
      s.dialect.blocks.opens (s.asWord d text (s.context.tokenAhead? s.cursor.ahead)) s.context :=
      opens
    dsimp only
    rw [same]
    rfl

/-- The session `u`, with the place of another and the warnings given there. -/
def beside (u z : Session) : Session := { u with cursor := z.cursor, warnings := z.warnings }

/-- The next pass of the second session sees what that of the first one sees. -/
structure Matches (s : Session) (draft : Option Draft) (s' : Session) (draft' : Option Draft) :
    Prop where
  head : s'.cursor.ahead.head? = s.cursor.ahead.head?
  gap : ∀ c ∈ s.cursor.ahead.head?, s'.gap? draft' c = s.gap? draft c
  token : ∀ c ∈ s.cursor.ahead.head?, s.gap? draft c = none → ∀ u d, s.begin draft = .ok (u, d) →
    u.SeesToken d c s'.cursor.ahead

theorem Matches.cons (same : Matches s draft s' draft') (here : s.cursor.ahead = c :: rest) :
    c ∈ s.cursor.ahead.head? ∧ ∃ rest', s'.cursor.ahead = c :: rest' := by
  have head := same.head
  rw [here] at head ⊢
  exact ⟨rfl, List.head?_eq_some_iff.mp head⟩

theorem Sees.matches (sees : s.Sees draft s'.cursor.ahead) (inline : s.Inline)
    (twins : Twins s draft s' draft') : Matches s draft s' draft' where
  head := sees.head
  gap := fun c head => (twins.gap? inline c).trans (sees.gap c (sees.head ▸ head))
  token := fun c head => sees.token c (sees.head ▸ head)

/-- The token that is read next is the same in both. -/
theorem Twins.reads (twins : Twins s draft s' draft') (same : Matches s draft s' draft')
    (ahead : s.cursor.ahead = c :: rest) (solid : s.gap? draft c = none)
    (begun : s.begin draft = .ok (u, d)) :
    ∃ rest' start, s'.cursor.ahead = c :: rest' ∧ s'.gap? draft' c = none ∧
      s'.begin draft' = .ok (u.beside s', { d with start }) ∧
      u.dialect.token u.context.startsWord c rest' = u.dialect.token u.context.startsWord c rest ∧
      (u.dialect.token u.context.startsWord c rest = .symbol c →
        d.afterSymbol c rest' = d.afterSymbol c rest) ∧
      (u.dialect.token u.context.startsWord c rest = .word →
        u.SeesWord d (u.beside s').cursor.ahead) := by
  obtain ⟨head, rest', ahead'⟩ := same.cons ahead
  have gap : s'.gap? draft' c = none := (same.gap c head).trans solid
  obtain ⟨start, begun'⟩ := twins.begin begun
  obtain ⟨token, symbol, word⟩ := same.token c head solid u d begun
  rw [begin_cursor begun, ahead] at token symbol word
  rw [ahead'] at token symbol
  exact ⟨rest', start, ahead', gap, begun', token, symbol, word⟩

theorem SeesWord.wordText {z : Session} (sees : u.SeesWord d z.cursor.ahead) :
    (u.beside z).wordText = u.wordText := by
  have spelled : (u.beside z).word = u.word := sees.word
  rw [Session.wordText, Session.wordText, spelled]

theorem SeesWord.mayDirect_iff {z : Session} (sees : u.SeesWord d z.cursor.ahead)
    (start : Cursor) : (u.beside z).mayDirect { d with start } = true ↔ u.mayDirect d = true := by
  rw [Session.mayDirect_iff, Session.mayDirect_iff, sees.wordText]
  rfl

/-- A directive has effect in both. -/
theorem direct_twin {x : Delimiter} {z : Session} (sees : u.SeesWord d z.cursor.ahead)
    (may : u.mayDirect d = true) (line : u.directive? = .ok (some x)) :
    (u.beside z).directive? = .ok (some x) ∧ Twins (u.direct x) none ((u.beside z).direct x) none ∧
      (u.direct x).cursor = u.cursor.skip (lineLength u.cursor.ahead) ∧
      ((u.beside z).direct x).cursor = z.cursor.skip (lineLength u.cursor.ahead) := by
  refine ⟨(sees.directive may).trans line, .between (u.direct x) _ _, direct_cursor u x, ?_⟩
  rw [direct_cursor, ← sees.line x may line]
  rfl

/-- Any other word is taken in both. -/
theorem word_twin {z : Session} (sees : u.SeesWord d z.cursor.ahead) (start : Cursor)
    (taken : u.afterWord.takeWord d u.wordText = .more t e) :
    ∃ t' e', (u.beside z).afterWord.takeWord { d with start } (u.beside z).wordText = .more t' e' ∧
      Twins t e t' e' ∧ t.cursor = u.cursor.skip u.word.length ∧
      t'.cursor = z.cursor.skip u.word.length := by
  have spelled : (u.beside z).word = u.word := sees.word
  have moved : (u.beside z).afterWord =
      { u.afterWord with cursor := z.cursor.skip u.word.length, warnings := z.warnings } := by
    rw [afterWord, spelled]
    rfl
  obtain ⟨warnings', taken', rfl⟩ := takeWord_twin taken (z.cursor.skip u.word.length) z.warnings
    start (by
      intro other
      have opens := sees.opens other
      rw [scanned, afterWord, Session.wordText, sees.word] at opens
      simp only [asWord, skip_cursor, Cursor.skip_ahead] at opens ⊢
      exact opens)
  refine ⟨_, _, by rw [sees.wordText, moved]; exact taken', .within _ _ _ _ _, ?_, rfl⟩
  obtain ⟨-, blocks, lastClosed, warnings, rfl⟩ := takeWord_more taken
  rw [classify_eq]
  rfl

/-- Where the next pass sees the same, it makes the same step. -/
theorem step_matched (h : Step s draft t e) (twins : Twins s draft s' draft')
    (same : Matches s draft s' draft') :
    ∃ t' e' n, Step s' draft' t' e' ∧ Twins t e t' e' ∧ n ≤ s.cursor.ahead.length ∧
      t.cursor = s.cursor.skip n ∧ t'.cursor = s'.cursor.skip n := by
  cases h with
  | @gap _ c rest g n ahead found length =>
    obtain ⟨head, rest', ahead'⟩ := same.cons ahead
    exact ⟨_, _, n, .gap ahead' ((same.gap c head).trans found) length, twins.skip n n,
      length?_le ahead found length, rfl, rfl⟩
  | @delimiter c rest n ahead found =>
    obtain ⟨head, rest', ahead'⟩ := same.cons ahead
    have found' := (same.gap c head).trans found
    cases twins with
    | between cursor warnings =>
      have after := (Twins.between s cursor warnings).skip n n
      exact ⟨_, _, n, .delimiter ahead' found', after.restored, delimiter_le found, rfl, rfl⟩
  | @text _ c rest u d n ahead solid begun token =>
    obtain ⟨rest', start, ahead', gap', begun', token', -⟩ := twins.reads same ahead solid begun
    refine ⟨_, _, n, .text ahead' gap' begun' (token'.trans token),
      .within (u.skip n) d.afterText _ _ start, ?_, ?_, rfl⟩
    · rw [ahead]
      exact Dialect.token_le token
    · rw [skip_cursor, begin_cursor begun]
  | @symbol _ c rest u d ahead solid begun token =>
    obtain ⟨rest', start, ahead', gap', begun', token', symbol, -⟩ :=
      twins.reads same ahead solid begun
    have after : ({ d with start } : Draft).afterSymbol c rest' =
        { d.afterSymbol c rest with start } := by
      rw [← symbol token]
      rfl
    refine ⟨_, _, 1, .symbol ahead' gap' begun' (token'.trans token), ?_, ?_, ?_, ?_⟩
    · rw [after, countParen_eq, countParen_eq]
      exact .within _ (d.afterSymbol c rest) (s'.cursor.skip 1) s'.warnings start
    · rw [ahead]
      exact Nat.succ_le_succ (Nat.zero_le _)
    · rw [countParen_eq, skip_cursor, begin_cursor begun]
    · rw [countParen_eq]
      rfl
  | directive ahead solid begun token may line =>
    obtain ⟨rest', start, ahead', gap', begun', token', -, word⟩ :=
      twins.reads same ahead solid begun
    have word := word token
    obtain ⟨line', after, moved, moved'⟩ := direct_twin word may line
    rw [begin_cursor begun] at moved moved'
    exact ⟨_, _, _, .directive ahead' gap' begun' (token'.trans token)
      ((word.mayDirect_iff start).mpr may) line', after, lineLength_le _, moved, moved'⟩
  | @word _ _ c rest u _ d ahead solid begun token plain taken =>
    obtain ⟨rest', start, ahead', gap', begun', token', -, word⟩ :=
      twins.reads same ahead solid begun
    have word := word token
    obtain ⟨t', e', taken', after, moved, moved'⟩ := word_twin word start taken
    have short : u.word.length ≤ u.cursor.ahead.length :=
      (u.context.wordAhead_prefix u.cursor.ahead).length_le
    rw [begin_cursor begun] at moved short
    refine ⟨t', e', _, .word ahead' gap' begun' (token'.trans token) ?_ taken', after, ?_, moved,
      moved'⟩
    · intro may'
      have may := (word.mayDirect_iff start).mp may'
      exact (word.directive may).trans (plain may)
    · exact short

theorem step_twin (h : Step s draft t e) (inline : s.Inline) (twins : Twins s draft s' draft')
    (sees : s.Sees draft s'.cursor.ahead) :
    ∃ t' e' n, Step s' draft' t' e' ∧ Twins t e t' e' ∧ t.cursor = s.cursor.skip n ∧
      t'.cursor = s'.cursor.skip n := by
  obtain ⟨t', e', n, step, after, -, moved, moved'⟩ :=
    step_matched h twins (sees.matches inline twins)
  exact ⟨t', e', n, step, after, moved, moved'⟩

/-- Where the next pass sees the same, it finds the statement that ends there. -/
theorem found_matched {statement : Statement} (h : s.pass draft = .found t statement)
    (twins : Twins s draft s' draft') (same : Matches s draft s' draft') :
    ∃ d d' t' n, draft = some d ∧ draft' = some d' ∧ statement = s.cut d s.cursor ∧
      s'.pass draft' = .found t' (s'.cut d' s'.cursor) ∧ Twins t none t' none ∧
      n ≤ s.cursor.ahead.length ∧ t.cursor = s.cursor.skip n ∧ t'.cursor = s'.cursor.skip n := by
  obtain ⟨d, rfl, rfl, ⟨c, rest, n, ahead, found, rfl⟩ | ⟨ended, outside, rfl⟩⟩ := pass_found h
  · obtain ⟨head, rest', ahead'⟩ := same.cons ahead
    have pass := pass_of_gap ahead' ((same.gap c head).trans found)
    cases twins with
    | within _ cursor warnings start =>
      exact ⟨d, _, _, n, rfl, rfl, rfl, pass, ((Twins.between s cursor warnings).skip n n).restored,
        delimiter_le found, rfl, rfl⟩
  · have ended' : s'.cursor.ahead = [] := by
      rw [← List.head?_eq_none_iff, same.head, ended]
      rfl
    have pass := (pass_of_end ended').trans
      (finish_outside (twins.alike.blocks.trans outside) draft')
    cases twins with
    | within _ cursor warnings start =>
      exact ⟨d, _, _, 0, rfl, rfl, rfl, pass, (Twins.between s cursor warnings).restored,
        Nat.zero_le _, rfl, rfl⟩

theorem found_twin {statement : Statement} (h : s.pass draft = .found t statement)
    (inline : s.Inline) (twins : Twins s draft s' draft') (sees : s.Sees draft s'.cursor.ahead) :
    ∃ d d' t' n, draft = some d ∧ draft' = some d' ∧ statement = s.cut d s.cursor ∧
      s'.pass draft' = .found t' (s'.cut d' s'.cursor) ∧ Twins t none t' none ∧
      t.cursor = s.cursor.skip n ∧ t'.cursor = s'.cursor.skip n := by
  obtain ⟨d, d', t', n, held, held', cut, pass, after, -, moved, moved'⟩ :=
    found_matched h twins (sees.matches inline twins)
  exact ⟨d, d', t', n, held, held', cut, pass, after, moved, moved'⟩

theorem finished_twin (h : s.pass draft = .finished t) (twins : Twins s draft s' draft')
    (ahead : s'.cursor.ahead = s.cursor.ahead) : ∃ t', s'.pass draft' = .finished t' := by
  obtain ⟨rfl, ended, outside, -⟩ := pass_finished h
  have pass := (pass_of_end (ahead.trans ended)).trans
    (finish_outside (twins.alike.blocks.trans outside) draft')
  cases twins with
  | between cursor warnings => exact ⟨_, pass⟩

/-- Where drafts begin, and where the cursors are when they do, keeps the same relation. -/
theorem Twins.together {related : Cursor → Cursor → Prop} (after : Twins t e t' e')
    (h : Together related draft draft') (cursors : related s.cursor s'.cursor)
    (step : Step s draft t e) (step' : Step s' draft' t' e') : Together related e e' :=
  step_together h cursors step step' after.alike

theorem onward_ok_cases {statements : List Statement} (h : s.onward draft = .ok statements) :
    (statements = [] ∧ ∃ u f t, Passes s draft u f ∧ u.pass f = .finished t) ∨
      ∃ u f t statement later, statements = statement :: later ∧ Passes s draft u f ∧
        u.pass f = .found t statement ∧ t.remaining.2 = .ok later := by
  rw [onward] at h
  rcases read : s.read draft with ⟨t, fault | _ | statement⟩
  · rw [read] at h
    cases h
  · rw [read] at h
    cases h
    obtain ⟨u, f, passes, finished⟩ := passes_of_finished read
    exact Or.inl ⟨rfl, u, f, t, passes, finished⟩
  · rw [read] at h
    obtain ⟨u, f, passes, found⟩ := passes_of_found read
    cases later : t.remaining.2 with
    | error fault => simp [later, Except.map] at h
    | ok statements' =>
      simp only [later, Except.map, Except.ok.injEq] at h
      exact Or.inr ⟨u, f, t, statement, statements', h.symm, passes, found, later⟩

end Session

/-- The statement `b` is `a` with `y` in place of the text `x` after `p`, if that text is in it.
It is trimmed with the text in its place. -/
inductive Respaced (p x y : List Char) (a b : Statement) : Prop
  | within (before after : List Char) (delimiter : b.delimiter = a.delimiter)
      (place : a.start + byteSize before = byteSize p)
      (place' : b.start + byteSize before = byteSize p)
      (sql : a.sql = String.ofList (trimEnd (before ++ x ++ after)))
      (sql' : b.sql = String.ofList (trimEnd (before ++ y ++ after)))
  | apart (delimiter : b.delimiter = a.delimiter)
      (place : a.stop ≤ byteSize p ∨ byteSize (p ++ x) ≤ a.start) (sql : b.sql = a.sql)

namespace Session

variable {s t u s' t' u' : Session} {draft e f draft' e' f' : Option Draft} {d d' : Draft}
variable {p x y q : List Char}

/-- The twins are past the text in which their scripts differ. -/
structure Abreast (p x y q : List Char) (s : Session) (draft : Option Draft) (s' : Session)
    (draft' : Option Draft) : Prop where
  inline : s.Inline
  twins : Twins s draft s' draft'
  cursors : Past p x y q s.cursor s'.cursor
  together : Together (Corresponds p x y q) draft draft'

theorem step_abreast (h : Step s draft t e) (abreast : Abreast p x y q s draft s' draft') :
    ∃ t' e', Step s' draft' t' e' ∧ Abreast p x y q t e t' e' := by
  have sees : s.Sees draft s'.cursor.ahead := abreast.cursors.ahead ▸ Sees.refl s draft
  obtain ⟨t', e', n, step, twins, moved, moved'⟩ := step_twin h abreast.inline abreast.twins sees
  refine ⟨t', e', step, step_inline h abreast.inline, twins, ?_, ?_⟩
  · rw [moved, moved']
    exact abreast.cursors.skip n
  · exact twins.together abreast.together (Or.inr abreast.cursors) h step

theorem passes_abreast (h : Passes s draft u f) (abreast : Abreast p x y q s draft s' draft') :
    ∃ u' f', Passes s' draft' u' f' ∧ Abreast p x y q u f u' f' := by
  induction h generalizing s' draft' with
  | refl => exact ⟨s', draft', .refl s' draft', abreast⟩
  | step first _ ih =>
    obtain ⟨t', e', step, after⟩ := step_abreast first abreast
    obtain ⟨u', f', passes, later⟩ := ih after
    exact ⟨u', f', .step step passes, later⟩

/-- A statement that ends past the text in which the scripts differ holds it whole, or begins
after it. -/
theorem cut_abreast (delimiter : s'.context.delimiter = s.context.delimiter)
    (starts : Corresponds p x y q d.start d'.start) (cursors : Past p x y q s.cursor s'.cursor) :
    Respaced p x y (s.cut d s.cursor) (s'.cut d' s'.cursor) := by
  rcases cursors.upTo starts with ⟨before, after, place, place', text, text'⟩ | ⟨later, text⟩
  · refine .within before after delimiter place place' ?_ ?_
    · simp only [cut, text]
    · simp only [cut, text']
  · refine .apart delimiter (Or.inr later) ?_
    simp only [cut, text]

theorem found_abreast {statement : Statement} (h : s.pass draft = .found t statement)
    (abreast : Abreast p x y q s draft s' draft') :
    ∃ t' statement', s'.pass draft' = .found t' statement' ∧ Respaced p x y statement statement' ∧
      Abreast p x y q t none t' none := by
  have sees : s.Sees draft s'.cursor.ahead := abreast.cursors.ahead ▸ Sees.refl s draft
  obtain ⟨d, d', t', n, rfl, rfl, rfl, found, twins, moved, moved'⟩ :=
    found_twin h abreast.inline abreast.twins sees
  refine ⟨t', _, found, ?_, ?_, twins, ?_, .none⟩
  · cases abreast.together with
    | some starts => exact cut_abreast abreast.twins.alike.delimiter starts abreast.cursors
  · obtain ⟨n, rfl⟩ := restored_of_found h
    exact inline_restored ⟨abreast.inline.active, abreast.inline.script, abreast.inline.dialect⟩
  · rw [moved, moved']
    exact abreast.cursors.skip n

/-- If the one of them is read to its end, so is the other, with the same statements. -/
theorem onward_abreast {statements : List Statement} (live : s.exhausted = false)
    (abreast : Abreast p x y q s draft s' draft') (h : s.onward draft = .ok statements) :
    ∃ statements', s'.onward draft' = .ok statements' ∧
      List.Forall₂ (Respaced p x y) statements statements' := by
  induction statements generalizing s draft s' draft' with
  | nil =>
    rcases onward_ok_cases h with ⟨-, u, f, t, passes, finished⟩ | ⟨_, _, _, _, _, same, -⟩
    · obtain ⟨u', f', passes', after⟩ := passes_abreast passes abreast
      obtain ⟨t', finished'⟩ := finished_twin finished after.twins after.cursors.ahead
      have hc : s'.Classified draft' := by
        refine classified_of_grammar ?_
        rw [abreast.twins.alike.dialect]
        exact abreast.inline.dialect.grammar
      exact ⟨[], (onward_of_passes hc passes').trans (onward_of_finished finished'), .nil⟩
    · cases same
  | cons statement later ih =>
    rcases onward_ok_cases h with ⟨same, -⟩ | ⟨u, f, t, _, _, same, passes, found, rest⟩
    · cases same
    · cases same
      obtain ⟨u', f', passes', after⟩ := passes_abreast passes abreast
      obtain ⟨t', statement', found', respaced, next⟩ := found_abreast found after
      have open_ : t.exhausted = false := by
        obtain ⟨n, rfl⟩ := restored_of_found found
        exact (passes_same passes).2.trans live
      obtain ⟨statements', rest', all⟩ := ih open_ next ((onward_none open_).trans rest)
      have hc : s'.Classified draft' := by
        refine classified_of_grammar ?_
        rw [abreast.twins.alike.dialect]
        exact abreast.inline.dialect.grammar
      refine ⟨statement' :: statements', ?_, .cons respaced all⟩
      rw [onward_of_passes hc passes',
        onward_of_found (next.twins.alike.exhausted.trans open_) found', rest']
      rfl

end Session

end SqlBoundary
