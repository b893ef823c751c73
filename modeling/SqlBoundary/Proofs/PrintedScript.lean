import SqlBoundary.CommandLine.Run
import SqlBoundary.Proofs.Reprint

/-!
# Printed scripts

The statements of a script, printed one after another under comments with their lines, are a script
themselves. Where each of them is read again as it was read, that script has the same statements
with the same delimiters. What goes wrong otherwise is told by the conditions: a delimiter printed
right behind a comment belongs to the comment.
-/

namespace SqlBoundary

open Text

/-- What of a statement does not depend on its place. -/
def Statement.body (statement : Statement) : String × Delimiter :=
  (statement.sql, statement.delimiter)

/-- The script has no directives, and each of its statements is read again as it was read. -/
structure Reprintable (v : Vendor) (script : String) : Prop where
  plain : ∀ s draft found, Visits v.dialect v.dialect.defaultDelimiter script s draft found →
    s.setting? draft = none
  reprints : ∀ s draft found statement,
    Visits v.dialect v.dialect.defaultDelimiter script s draft found →
    s.awaited? draft = some statement → s.Reprints draft statement

namespace Session

/-- Whether what is printed of the statement is read as it was, as far as it can be computed:
nothing is searched for here. -/
def reprintsUnsought (s : Session) (draft : Option Draft) (statement : Statement) : Bool :=
  let alone := statement.delimiter.aloneOnLine
  decide (draft ≠ none → alone = false → s.dialect.OpensLine s.cursor.ahead →
    s.cursor.offset + byteSize (currentLine s.cursor.ahead) < statement.stop) &&
  decide (draft ≠ none → s.cursor.ahead = [] → alone = false → s.context.parens ≤ 0) &&
  decide (draft = none →
    ∀ d ∈ s.dialect.defaultDelimiter :: s.dialect.standaloneTerminator.toList,
      d.aloneOnLine = true →
        d.fillsLine (statement.sql ++ statement.delimiter.display).toList = false) &&
  match s.begin draft with
  | .ok (u, x) =>
    decide (u.wordText = "BEGIN" → alone = true → u.afterWord.cursor.offset ≠ statement.stop) &&
      (u.dialect.blocks.sought? (u.scanned x) u.context).isNone
  | .error _ => true

theorem reprints_of_unsought {s : Session} {draft : Option Draft} {statement : Statement}
    (computed : s.reprintsUnsought draft statement = true) : s.Reprints draft statement := by
  simp only [reprintsUnsought, Bool.and_eq_true, decide_eq_true_eq] at computed
  obtain ⟨⟨⟨comment, level⟩, first⟩, words⟩ := computed
  refine ⟨comment, level, first, ?_, ?_⟩
  · intro u x scans text alone
    rw [scans.begun, Bool.and_eq_true, decide_eq_true_eq] at words
    exact words.1 text alone
  · intro u x keywords w a after scans sought
    rw [scans.begun, Bool.and_eq_true, sought] at words
    cases words.2

end Session

/-- The conditions can be computed along a run, where nothing is searched for. -/
theorem Reprintable.of_trail {v : Vendor} {script : String} {n : Nat}
    {run : List (Session × Option Draft)}
    (listed : Session.trail n (.ofScript v.dialect v.dialect.defaultDelimiter script) none = run)
    (ends : run.length < n) (plain : ∀ state ∈ run, state.1.setting? state.2 = none)
    (reprints : ∀ state ∈ run, ∀ statement ∈ state.1.awaited? state.2,
      state.1.reprintsUnsought state.2 statement = true) : Reprintable v script := by
  subst listed
  constructor
  · intro s draft found visits
    exact plain (s, draft) (Session.mem_trail ends visits)
  · intro s draft found statement visits awaited
    exact Session.reprints_of_unsought
      (reprints (s, draft) (Session.mem_trail ends visits) statement awaited)

/-- A statement is printed under a comment. -/
theorem CommandLine.statementText_toList (statement : Statement) :
    ∃ more, '\n' ∉ '-' :: '-' :: more ∧
      (statementText statement).toList = '-' :: '-' :: more ++ '\n' ::
        (statement.sql.toList ++ (statement.delimiter.display.toList ++ ['\n'])) := by
  refine ⟨" line ".toList ++ (toString statement.line).toList, ?_, ?_⟩
  · have digits : '\n' ∉ Nat.toDigits 10 statement.line := by
      intro mem
      have digit := Nat.isDigit_of_mem_toDigits (by decide) (by decide) mem
      revert digit
      decide
    simp [digits]
  · simp [statementText]

/-- Delimiters that stand alone are words of one line. -/
theorem Delimiter.spelled_alone {d : Delimiter} (alone : d ∈ [.slash, .go]) :
    ∃ c rest, d.text.toList = c :: rest ∧ isBlank c = false ∧ '\n' ∉ c :: rest ∧
      sameIgnoringCase (trimEnd (c :: rest)) (c :: rest) = true := by
  rcases List.mem_cons.mp alone with rfl | go
  · exact ⟨'/', [], rfl, by decide, by decide, by decide⟩
  · rw [List.mem_singleton.mp go]
    exact ⟨'G', ['O'], rfl, by decide, by decide, by decide⟩

theorem Delimiter.fillsLine_dash {d : Delimiter} (alone : d ∈ [.slash, .go]) (rest : List Char) :
    d.fillsLine ('-' :: rest) = false := by
  have line : currentLine ('-' :: rest) = '-' :: currentLine rest := by simp [currentLine]
  obtain ⟨more, same⟩ := trimEnd_cons (c := '-') (by decide) (currentLine rest)
  rw [fillsLine, line, same]
  rcases List.mem_cons.mp alone with rfl | go
  · rfl
  · rw [List.mem_singleton.mp go]
    rfl

theorem Vendor.terminator_alone (v : Vendor) :
    ∀ d ∈ v.dialect.standaloneTerminator, d ∈ [.slash, .go] := by
  cases v <;> decide

theorem Trimmed.endsSolid {text : List Char} (trimmed : Trimmed text) : EndsSolid text := by
  obtain ⟨c, rest, rfl, -⟩ := trimmed.first
  have more := List.cons_ne_nil c rest
  refine ⟨(c :: rest).dropLast, (c :: rest).getLast more, ?_, ?_⟩
  · exact (List.dropLast_append_getLast more).symm
  · exact trimmed.last _ (List.getLast?_eq_some_getLast more)

namespace Session

variable {s s' t u z : Session} {draft draft' e f : Option Draft} {x y : Draft} {c : Char}
variable {p p' q text blanks r b cs w : List Char} {v : Vendor} {statement : Statement}
variable {script : String} {found : List Statement} {origin : Cursor}

/-- Passes that take the statement begun with `x` on to `y`. -/
inductive Within : Session → Draft → Session → Draft → Prop
  | refl (s : Session) (x : Draft) : Within s x s x
  | step {s t u : Session} {x y z : Draft} (first : Step s (some x) t (some y))
      (rest : Within t y u z) : Within s x u z

theorem within_of_passes (h : Passes s (some x) u (some y))
    (plain : ∀ z f, Passes s (some x) z f → z.setting? f = none) : Within s x u y := by
  generalize held : some x = draft, held' : some y = f at h
  induction h generalizing x with
  | refl =>
    subst held
    cases held'
    exact .refl _ y
  | step first rest ih =>
    subst held
    obtain ⟨y, rfl⟩ := step_within first (plain _ _ (.refl _ _))
    exact .step first (ih (fun _ _ h => plain _ _ (.step first h)) rfl held')

theorem passes_of_within (h : Within s x u y) : Passes s (some x) u (some y) := by
  induction h with
  | refl s x => exact .refl s (some x)
  | step first _ ih => exact .step first ih

theorem within_start (h : Within s x u y) : y.start = x.start := by
  induction h with
  | refl => rfl
  | step first _ ih => exact ih.trans (step_start first)

theorem within_alone (h : Within s x u y) (alone : s.context.delimiter.aloneOnLine = true) :
    u.context.delimiter.aloneOnLine = true := by
  induction h with
  | refl => exact alone
  | step first _ ih => exact ih (step_alone first alone)

/-- A step on the way to a statement takes a character. -/
theorem advances_of_found (first : Step s draft t (some x)) (rest : Passes t (some x) u f)
    (hc : s.Classified draft) (last : u.pass f = .found s' statement) :
    t.cursor.ahead.length < s.cursor.ahead.length := by
  have later := step_classified first hc
  rcases step_advances first hc with shorter | ⟨d, same, stuck⟩
  · exact shorter
  · cases same
    obtain ⟨d, rfl, stuck⟩ := stuck_of_passes rest stuck later
    have again := pass_of_stuck stuck (passes_classified rest later)
    rw [last] at again
    cases again

section

variable (again : Reprintable v script)
include again

theorem visits_native
    (h : Visits v.dialect v.dialect.defaultDelimiter script s draft found) : s.Native v draft := by
  induction h with
  | start => exact ⟨rfl, rfl, rfl, Or.inl rfl, typed_none _, classified_none _⟩
  | step before step ih => exact step_native step (again.plain _ _ _ before) ih
  | found _ pass ih => exact found_native pass ih

/-- A step on the way to a statement is taken in both. -/
theorem step_reprinted (printed : statement.Printed blanks u.cursor.ahead b)
    (trimmed : Trimmed text) (spans : statement.Spans p text) (first : Step s draft z (some x))
    (rest : Within z x u y) (last : u.pass (some y) = .found t statement)
    (visits : Visits v.dialect v.dialect.defaultDelimiter script s draft found)
    (apart : draft = none → s'.delimiterLength? = none ∧ s'.atTerminator = false)
    (copied : Copied p p' text blanks u.cursor.ahead b origin s draft s' draft') :
    ∃ t' y', Passes s' draft' t' (some y') ∧
      Copied p p' text blanks u.cursor.ahead b origin z (some x) t' (some y') := by
  have native := visits_native again visits
  have passes := passes_of_within rest
  have awaited := awaited?_of_passes (.step first passes) native.classified last
  have reprints := again.reprints _ _ _ _ visits awaited
  have alone : s.context.delimiter.aloneOnLine = true →
      statement.delimiter.aloneOnLine = true := by
    obtain ⟨d, -, rfl, -⟩ := pass_found last
    exact fun alone => within_alone rest (step_alone first alone)
  obtain ⟨piece, left, -⟩ := passes_cut passes
  exact step_copied printed trimmed spans native reprints first alone left
    (advances_of_found first passes native.classified last) apart copied

/-- The rest of a statement is read in both, up to the end of its text. -/
theorem within_reprinted (printed : statement.Printed blanks u.cursor.ahead b)
    (trimmed : Trimmed text) (spans : statement.Spans p text) (h : Within s x u y)
    (last : u.pass (some y) = .found t statement)
    (visits : Visits v.dialect v.dialect.defaultDelimiter script s (some x) found)
    (copied : Copied p p' text blanks u.cursor.ahead b origin s (some x) s' draft') :
    ∃ u' y', Passes s' draft' u' (some y') ∧ Twins u (some y) u' (some y') ∧
      u'.cursor = .between (p' ++ text) b ∧ y'.start = origin := by
  induction h generalizing s' draft' with
  | refl s x =>
    cases copied with
    | within k w shares begun twins start =>
      have ahead := congrArg (·.ahead.length) shares.here
      have pos := List.length_pos_iff.mpr shares.more
      simp only [Cursor.between, List.length_append] at ahead
      omega
    | behind tail last twins here there start =>
      exact ⟨s', _, .refl s' _, twins, there, start⟩
  | step first rest ih =>
    obtain ⟨t', z', passes, later⟩ :=
      step_reprinted again printed trimmed spans first rest last visits
        (fun none => absurd none (Option.some_ne_none _)) copied
    obtain ⟨u', y', more, ends⟩ := ih printed last (.step visits first) later
    exact ⟨u', y', passes_trans passes more, ends⟩

end

/-- Past the delimiter both are between statements. -/
theorem twins_of_found (last : u.pass (some x) = .found t statement)
    (twins : Twins u (some x) s' draft') (n : Nat) : Twins t none (s'.skip n).restored none := by
  obtain ⟨m, rfl⟩ := restored_of_found last
  exact (twins.skip m n).restored

/-- What is cut out up to blanks behind the text is the text. -/
theorem cut_body (trimmed : Trimmed text) (start : x.start = .between p (text ++ (w ++ cs)))
    (place : s.cursor = .between (p ++ (text ++ w)) cs) (blank : ∀ c ∈ w, isBlank c = true) :
    (s.cut x s.cursor).body = (String.ofList text, s.context.delimiter) := by
  have whole : x.start.upTo s.cursor = text ++ w := by
    rw [start, place, ← List.append_assoc text]
    exact Cursor.upTo_between p (text ++ w) cs
  rw [Statement.body, cut, whole, trimEnd_append blank, trimEnd_of_solid trimmed.endsSolid]

/-- The delimiter is printed as nothing or the end of a line, and a text that is found there. -/
theorem display_delimits (printed : statement.Printed blanks r b)
    (delimiter : s.context.delimiter = statement.delimiter) (outside : s.context.blocks = [])
    (level : statement.delimiter.aloneOnLine = false → s.context.parens ≤ 0)
    (place : s.cursor = .between q b) :
    ∃ w c closing after, (∀ c ∈ w, isBlank c = true) ∧ isBlank c = false ∧
      b = w ++ (c :: closing ++ '\n' :: after) ∧
      statement.delimiter.display.toList = w ++ c :: closing ∧
      (s.skip w.length).delimiterLength? = some (c :: closing).length := by
  cases kind : statement.delimiter.aloneOnLine with
  | false =>
    obtain ⟨same, -, after, rfl⟩ := printed.inline kind
    refine ⟨[], ';', [], after, nofun, by decide, rfl, by rw [same]; rfl, ?_⟩
    have starts : Delimiter.semicolon.startsAt (';' :: '\n' :: after) = true := by
      simp [Delimiter.startsAt, Delimiter.semicolon, Delimiter.inline]
    have level := level kind
    have inline : Delimiter.semicolon.aloneOnLine = false := rfl
    have ahead : s.cursor.ahead = ';' :: '\n' :: after := by rw [place]; rfl
    simp only [delimiterLength?, skip_context, delimiter, same, Context.blockDepth, outside, level,
      inline, skip_cursor, List.length_nil, Cursor.skip_zero, ahead, starts]
    rfl
  | true =>
    obtain ⟨-, after, rfl⟩ := printed.alone kind
    obtain ⟨c, closing, spelled, solid, oneLine, fills⟩ :=
      Delimiter.spelled_alone (printed.standing kind)
    refine ⟨['\n'], c, closing, after, by simp [isBlank_lineFeed], solid, by rw [spelled]; rfl,
      by rw [Delimiter.display_alone kind, spelled]; rfl, ?_⟩
    have whole : currentLine (c :: closing ++ '\n' :: after) = c :: closing :=
      currentLine_of_lineEnds oneLine (Or.inr ⟨after, rfl⟩)
    have here : (s.skip 1).cursor = .between (q ++ ['\n']) (c :: closing ++ '\n' :: after) := by
      rw [skip_cursor, place, spelled, Cursor.skip_between]
      rfl
    have line : (s.skip 1).cursor.atLineOf statement.delimiter = true := by
      rw [here, Cursor.atLineOf, content_snoc]
      change (!false && statement.delimiter.fillsLine (c :: closing ++ '\n' :: after)) = true
      rw [Delimiter.fillsLine, whole, spelled]
      exact fills
    have length : lineLength (s.skip 1).cursor.ahead = (c :: closing).length := by
      rw [here, lineLength]
      exact congrArg List.length whole
    simp only [List.length_singleton, delimiterLength?, skip_context, delimiter, Context.blockDepth,
      outside, kind, line, length]
    rfl

/-- Between statements the one reads its script, and the other stands before what is printed of the
statements to come. -/
structure Resumes (s s' : Session) (printed : List Char) : Prop where
  twins : Twins s none s' none
  place : ∃ q, s'.cursor = .between q printed

/-- The statement is found before the printed delimiter, and a new line begins behind it. -/
theorem found_reprinted {after : List Char} (printed : statement.Printed blanks r b)
    (trimmed : Trimmed text) (sql : statement.sql = String.ofList text)
    (last : u.pass (some x) = .found t statement)
    (level : statement.delimiter.aloneOnLine = false → u.context.parens ≤ 0)
    (twins : Twins u (some x) s' (some y)) (place : s'.cursor = .between (p' ++ text) b)
    (start : y.start = .between p' (text ++ b))
    (shown : b = statement.delimiter.display.toList ++ '\n' :: after) :
    ∃ z t' statement', Passes s' (some y) z (some y) ∧ z.pass (some y) = .found t' statement' ∧
      statement'.body = statement.body ∧ t'.cursor.ahead = '\n' :: after ∧
      Resumes t (t'.skip 1) after := by
  have delimiter : s'.context.delimiter = statement.delimiter := by
    obtain ⟨d, -, rfl, -⟩ := pass_found last
    exact twins.alike.delimiter
  obtain ⟨w, c, closing, rest, blank, solid, split, spelled, active⟩ :=
    display_delimits printed delimiter (twins.alike.blocks.trans (outside_of_found last))
      (fun kind => twins.alike.parens.symm ▸ level kind) place
  obtain rfl : rest = after := by
    rw [split, spelled, List.append_assoc] at shown
    exact (List.cons.inj (List.append_cancel_left (List.append_cancel_left shown))).2
  have here : (s'.skip w.length).cursor =
      .between (p' ++ (text ++ w)) (c :: closing ++ '\n' :: rest) := by
    rw [skip_cursor, place, split, Cursor.skip_text, List.append_assoc]
  have ahead : (s'.skip w.length).cursor.ahead = c :: (closing ++ '\n' :: rest) := by
    rw [here]
    rfl
  have passes : Passes s' (some y) (s'.skip w.length) (some y) :=
    passes_blanks blank (by rw [place, split]; rfl)
  have pass := pass_of_delimiter (d := y) ahead solid active
  have behind : ((s'.skip w.length).skip (c :: closing).length).restored.cursor =
      .between (p' ++ (text ++ w) ++ c :: closing) ('\n' :: rest) := by
    change (s'.skip w.length).cursor.skip (c :: closing).length = _
    rw [here, Cursor.skip_text]
  refine ⟨_, _, _, passes, pass, ?_, by rw [behind]; rfl, ?_, ?_⟩
  · have body := cut_body (s := s'.skip w.length) trimmed (by rw [start, split]) here blank
    rw [body, Statement.body, sql, ← delimiter]
    rfl
  · exact (twins_of_found last (twins.skip 0 w.length) (c :: closing).length).skip 0 1
  · refine ⟨p' ++ (text ++ w) ++ c :: closing ++ ['\n'], ?_⟩
    rw [skip_cursor, behind, Cursor.skip_between]
    rfl

/-- The comment above a statement is passed, and the end of its line. -/
theorem passes_comment {rest more : List Char} (native : s.Native v none)
    (twins : Twins s none s' none) (oneLine : '\n' ∉ '-' :: '-' :: more)
    (place : s'.cursor = .between q ('-' :: '-' :: more ++ '\n' :: rest)) :
    ∃ t', Passes s' none t' none ∧ Twins s none t' none ∧
      t'.cursor = .between (q ++ '-' :: '-' :: more ++ ['\n']) rest := by
  have ahead : s'.cursor.ahead = '-' :: ('-' :: more ++ '\n' :: rest) := by
    rw [place]
    rfl
  have dialect : s'.dialect = v.dialect := twins.alike.dialect.trans native.dialect
  have outside : s'.delimiterLength? = none := by
    have delimiter := twins.alike.delimiter
    rcases native.delimiter with semicolon | others
    · rw [delimiterLength?_eq_none_iff (by rw [delimiter, semicolon]; rfl), delimiter, semicolon,
        ahead]
      exact Or.inr (Or.inr rfl)
    · rw [delimiterLength?_alone_eq_none_iff, delimiter, Cursor.atLineOf, ahead,
        Delimiter.fillsLine_dash others, Bool.and_false]
      · exact Or.inr rfl
      · rw [delimiter]
        exact Delimiter.alone_of_mem others
  have standing : s'.atTerminator = false := by
    rw [atTerminator, dialect]
    cases known : v.dialect.standaloneTerminator with
    | none => rfl
    | some d =>
      have alone := v.terminator_alone d known
      rw [Option.any_some, Cursor.atLineOf, ahead, Delimiter.fillsLine_dash alone, Bool.and_false]
  have whole : lineLength s'.cursor.ahead = ('-' :: '-' :: more).length := by
    rw [place]
    exact congrArg List.length (currentLine_of_lineEnds oneLine (Or.inr ⟨rest, rfl⟩))
  have comment : s'.gap? none '-' = some (.comment (.closed ('-' :: '-' :: more).length)) := by
    have opens : s'.dialect.OpensLine s'.cursor.ahead := Or.inl ⟨_, ahead.symm⟩
    have solid : isBlank '-' = false := by decide
    have found := Dialect.comment?_of_opensLine opens
    rw [whole] at found
    simp [gap?, solid, outside, standing, found]
  have moved : (s'.skip ('-' :: '-' :: more).length).cursor =
      .between (q ++ '-' :: '-' :: more) ('\n' :: rest) := by
    rw [skip_cursor, place, Cursor.skip_text]
  have feed : (s'.skip ('-' :: '-' :: more).length).gap? none '\n' = some .blank := rfl
  have line : Passes (s'.skip ('-' :: '-' :: more).length) none
      ((s'.skip ('-' :: '-' :: more).length).skip 1) none :=
    .step (.gap (by rw [moved]; rfl) feed rfl) (.refl _ _)
  refine ⟨_, .step (.gap ahead comment rfl) line, (twins.skip 0 _).skip 0 1, ?_⟩
  rw [skip_cursor, moved, Cursor.skip_between]
  rfl

/-- Up to the next statement nothing changes but the place. -/
theorem step_idle (native : s.Native v none) (plain : s.setting? none = none)
    (h : Step s none t none) (twins : Twins s none s' none) : Twins t none s' none := by
  cases h with
  | @gap _ _ _ _ n => exact twins.skip n 0
  | @delimiter _ _ n =>
    have own : (s.skip n).context.delimiter = (s.skip n).scriptDelimiter :=
      native.own.trans native.script.symm
    change Twins (s.skip n).restored none s' none
    rw [restored_of_own own]
    exact twins.skip n 0
  | directive ahead solid begun token may line =>
    rw [setting?_of_begin ahead solid begun, token] at plain
    simp [may, line] at plain
  | word _ _ _ _ _ taken =>
    obtain ⟨none, -⟩ := takeWord_more taken
    cases none

/-- The passes on the way to a statement are some between statements and those that read it. -/
theorem begun_of_passes (h : Passes s none u (some x)) :
    ∃ z t y, Passes s none z none ∧ Step z none t (some y) ∧ Passes t (some y) u (some x) := by
  generalize none_ : (none : Option Draft) = draft, held : some x = f at h
  induction h with
  | refl =>
    subst held
    cases none_
  | @step s t u draft e f first rest ih =>
    subst none_ held
    cases e with
    | some y => exact ⟨s, t, y, .refl s none, first, rest⟩
    | none =>
      obtain ⟨z, v, y, gap, begins, within⟩ := ih rfl rfl
      exact ⟨z, v, y, .step first gap, begins, within⟩

/-- At the begin of its line the text is no delimiter, if its first line is none. -/
theorem apart_of_first {after : List Char} (native : s.Native v none)
    (reprints : s.Reprints none statement) (sql : statement.sql = String.ofList text)
    (more : text ≠ []) (twins : Twins s none s' none) (outside : s.delimiterLength? = none)
    (ahead : s.cursor.ahead = text ++ cs) (ahead' : s'.cursor.ahead = text ++ b)
    (shown : b = statement.delimiter.display.toList ++ '\n' :: after) :
    s'.delimiterLength? = none ∧ s'.atTerminator = false := by
  have lines : ∀ d ∈ v.dialect.defaultDelimiter :: v.dialect.standaloneTerminator.toList,
      d.aloneOnLine = true → s'.cursor.atLineOf d = false := by
    intro d mem alone
    have first := reprints.first rfl d (native.dialect ▸ mem) alone
    have ends : LineEnds ('\n' :: after) := Or.inr ⟨after, rfl⟩
    rw [Delimiter.fillsLine, sql, String.toList_append, String.toList_ofList,
      ← currentLine_append_of_lineEnds ends, List.append_assoc, ← shown] at first
    rw [Cursor.atLineOf, ahead', Delimiter.fillsLine, first, Bool.and_false]
  constructor
  · refine twins.delimiterLength?_eq_none outside ?_ ?_
    · intro alone _
      rw [native.own] at alone ⊢
      exact lines _ List.mem_cons_self alone
    · intro _ starts
      rw [ahead] at starts
      rw [ahead']
      exact (Delimiter.startsAt_of_ne_nil native.short more).trans starts
  · rw [atTerminator, twins.alike.dialect, native.dialect]
    cases known : v.dialect.standaloneTerminator with
    | none => rfl
    | some d =>
      refine lines d ?_ (Delimiter.alone_of_mem (v.terminator_alone d known))
      simp [known]

/-- A line on which nothing stands begins behind the last character that is not blank. -/
theorem feed_of_fresh (solid : EndsSolid cs)
    (fresh : (Cursor.between (cs ++ blanks) r).content = false) : '\n' ∈ blanks := by
  obtain ⟨init, c, rfl, nonblank⟩ := solid
  by_contra oneLine
  have line := freshLine_of_content fresh c (by
    have goes : ∀ x ∈ blanks.reverse, (x != '\n') = true := by
      intro x mem
      rw [bne_iff_ne]
      rintro rfl
      exact oneLine (List.mem_reverse.mp mem)
    rw [List.reverse_append, List.takeWhile_append_of_pos goes, List.reverse_append]
    refine List.mem_append_right _ ?_
    simp [ne_lineFeed_of_solid nonblank])
  rw [nonblank] at line
  cases line

/-- What comes after a statement in its script. -/
theorem printed_of_found {after : List Char} (native : u.Native v (some x))
    (last : u.pass (some x) = .found t statement) (trimmed : Trimmed text)
    (blank : ∀ c ∈ blanks, isBlank c = true)
    (place : u.cursor = .between (p ++ text ++ blanks) u.cursor.ahead) :
    statement.Printed blanks u.cursor.ahead
      (statement.delimiter.display.toList ++ '\n' :: after) := by
  obtain ⟨d, -, rfl, ends⟩ := pass_found last
  refine ⟨blank, ?_, after, rfl⟩
  change u.context.delimiter = .semicolon ∧ _ ∨ u.context.delimiter ∈ [.slash, .go] ∧ _
  rcases ends with ⟨c, rest, n, -, gap, -⟩ | ⟨ended, -⟩
  · obtain ⟨-, active⟩ := delimiterLength?_eq_some (delimiter_of_gap? gap).2
    rcases native.delimiter with semicolon | others
    · refine Or.inl ⟨semicolon, Or.inr ?_⟩
      rw [semicolon] at active
      obtain ⟨none, -⟩ | ⟨-, starts, -⟩ := active
      · cases none
      · simp only [Delimiter.startsAt, Bool.and_eq_true, List.isPrefixOf_iff_prefix] at starts
        obtain ⟨more, split⟩ := starts.2
        exact ⟨more, split.symm⟩
    · have alone := Delimiter.alone_of_mem others
      refine Or.inr ⟨others, Or.inr ?_⟩
      obtain ⟨-, line, -⟩ | ⟨-, starts, -⟩ := active
      · rw [Cursor.atLineOf, place, Bool.and_eq_true, Bool.not_eq_true'] at line
        exact feed_of_fresh (trimmed.endsSolid.append p) line.1
      · rw [Delimiter.startsAt, alone] at starts
        cases starts
  · exact native.delimiter.imp (⟨·, Or.inl ended⟩) (⟨·, Or.inl ended⟩)

theorem level_of_found (reprints : u.Reprints (some x) statement)
    (last : u.pass (some x) = .found t statement)
    (inline : statement.delimiter.aloneOnLine = false) : u.context.parens ≤ 0 := by
  obtain ⟨d, -, rfl, ⟨c, rest, n, -, gap, -⟩ | ⟨ended, -⟩⟩ := pass_found last
  · have inline : u.context.delimiter.aloneOnLine = false := inline
    obtain ⟨-, ⟨alone, -⟩ | ⟨level, -⟩⟩ := delimiterLength?_eq_some (delimiter_of_gap? gap).2
    · rw [inline] at alone
      cases alone
    · exact level
  · exact reprints.level (Option.some_ne_none x) ended inline

section

variable (again : Reprintable v script)
include again

/-- Passes that end between two statements begin there and do nothing. -/
theorem passes_idle (h : Passes s draft u f) (ended : f = none)
    (visits : Visits v.dialect v.dialect.defaultDelimiter script s draft found) :
    draft = none ∧ (Twins s none s' none → Twins u none s' none) := by
  induction h with
  | refl => exact ⟨ended, id⟩
  | @step s t u draft e f first rest ih =>
    have plain := again.plain _ _ _ visits
    obtain ⟨rfl, later⟩ := ih ended (.step visits first)
    cases draft with
    | some x =>
      obtain ⟨y, held⟩ := step_within first plain
      cases held
    | none =>
      exact ⟨rfl, fun twins => later (step_idle (visits_native again visits) plain first twins)⟩

/-- The text of a statement that has been read from `z` on, and the blanks after it. -/
theorem text_of_within
    (visits : Visits v.dialect v.dialect.defaultDelimiter script z none found)
    (first : Step z none s (some y)) (within : Within s y u x)
    (last : u.pass (some x) = .found t statement) :
    ∃ p text blanks, statement.Spans p text ∧ Trimmed text ∧ (∀ c ∈ blanks, isBlank c = true) ∧
      z.cursor = .between p (text ++ (blanks ++ u.cursor.ahead)) ∧
      u.cursor = .between (p ++ text ++ blanks) u.cursor.ahead := by
  have rest := passes_of_within within
  obtain ⟨p, -, place⟩ := visits_place visits
  obtain ⟨piece, ahead, moves⟩ := passes_cut (.step first rest)
  have moved := moves place
  have spans : statement.Spans p (trimEnd piece) := by
    obtain ⟨d, same, rfl, -⟩ := pass_found last
    cases same
    rw [moved]
    refine spans_cut ?_
    rw [within_start within, step_start first, ← ahead]
    exact place
  have trimmed : Trimmed (trimEnd piece) := by
    obtain ⟨c, more, begins, solid⟩ := step_solid first
    obtain ⟨left, split, -⟩ := passes_cut rest
    have shorter := advances_of_found first rest (visits_native again visits).classified last
    have nonempty : piece ≠ [] := by
      rintro rfl
      rw [ahead, split, List.length_append, List.nil_append] at shorter
      omega
    obtain ⟨x, tail, rfl⟩ := List.exists_cons_of_ne_nil nonempty
    rw [ahead] at begins
    obtain ⟨rfl, -⟩ := List.cons.inj begins
    exact trimmed_trimEnd solid tail
  obtain ⟨blanks, split, blank⟩ := trimEnd_append_blanks piece
  refine ⟨p, trimEnd piece, blanks, spans, trimmed, blank, ?_, ?_⟩
  · rw [← List.append_assoc, ← split, ← ahead]
    exact place
  · rw [List.append_assoc, ← split]
    exact moved

/-- From the begin of its line on, the text is read to the same statement. -/
theorem statement_reprinted {after : List Char}
    (visits : Visits v.dialect v.dialect.defaultDelimiter script z none found)
    (first : Step z none s (some y)) (within : Within s y u x)
    (last : u.pass (some x) = .found t statement) (twins : Twins z none s' none)
    (place : s'.cursor = .between q
      (statement.sql.toList ++ (statement.delimiter.display.toList ++ '\n' :: after))) :
    ∃ w f t' statement', Passes s' none w f ∧ w.pass f = .found t' statement' ∧
      statement'.body = statement.body ∧ t'.cursor.ahead = '\n' :: after ∧
      Resumes t (t'.skip 1) after := by
  have rest : Passes z none u (some x) := .step first (passes_of_within within)
  have there := visits_passes visits rest
  have native := visits_native again visits
  have native' := visits_native again there
  have reprints := again.reprints _ _ _ _ visits (awaited?_of_passes rest native.classified last)
  have awaited := awaited?_of_passes (.refl u (some x)) native'.classified last
  have level := level_of_found (again.reprints _ _ _ _ there awaited) last
  obtain ⟨p, text, blanks, spans, trimmed, blank, here, ends⟩ :=
    text_of_within again visits first within last
  have sql : statement.sql.toList = text := by rw [spans.sql, String.toList_ofList]
  have printed : statement.Printed blanks u.cursor.ahead
      (statement.delimiter.display.toList ++ '\n' :: after) :=
    printed_of_found native' last trimmed blank ends
  have more : text ≠ [] := by
    obtain ⟨c, rest, rfl, -⟩ := trimmed.first
    exact List.cons_ne_nil c rest
  rw [sql] at place
  have apart : s'.delimiterLength? = none ∧ s'.atTerminator = false := by
    obtain ⟨c, rest, -, solid⟩ := step_begins first
    exact apart_of_first native reprints spans.sql more twins (gap?_eq_none_iff.mp solid).2.1
      (by rw [here]; rfl) (by rw [place]; rfl) rfl
  have copied : Copied p q text blanks u.cursor.ahead
      (statement.delimiter.display.toList ++ '\n' :: after) s'.cursor z none s' none :=
    .within [] text ⟨rfl, more, by rw [List.append_nil]; exact here,
      by rw [List.append_nil]; exact place⟩ (Or.inl rfl) twins rfl
  obtain ⟨t₁, y₁, passes, copied⟩ :=
    step_reprinted again printed trimmed spans first within last visits (fun _ => apart) copied
  obtain ⟨u₁, x₁, passes₁, twins₁, place₁, start⟩ :=
    within_reprinted again printed trimmed spans within last (.step visits first) copied
  obtain ⟨w, t', statement', passes₂, pass, body, ahead, resumes⟩ :=
    found_reprinted printed trimmed spans.sql last level twins₁ place₁ (start.trans place) rfl
  exact ⟨w, some x₁, t', statement', passes_trans passes (passes_trans passes₁ passes₂), pass, body,
    ahead, resumes⟩

/-- The next statement of the script is the next one of what is printed. -/
theorem next_reprinted {after : List Char}
    (visits : Visits v.dialect v.dialect.defaultDelimiter script s none found)
    (resumes : Resumes s s' ((CommandLine.statementText statement).toList ++ after))
    (next : s.next = (t, .ok (some statement))) :
    ∃ z f t' statement', Passes s' none z f ∧ z.pass f = .found t' statement' ∧
      statement'.body = statement.body ∧ t'.cursor.ahead = '\n' :: after ∧
      Resumes t (t'.skip 1) after ∧
      Visits v.dialect v.dialect.defaultDelimiter script t none (found ++ [statement]) := by
  obtain ⟨u, f, passes, last⟩ := passes_of_found next
  obtain ⟨x, rfl, -⟩ := pass_found last
  obtain ⟨z, t₁, y, gap, first, rest⟩ := begun_of_passes passes
  have here := visits_passes visits gap
  have within : Within t₁ y u x := within_of_passes rest fun _ _ h =>
    again.plain _ _ _ (visits_passes (.step here first) h)
  have twins := (passes_idle again gap rfl visits).2 resumes.twins
  obtain ⟨comment, oneLine, spelled⟩ := CommandLine.statementText_toList statement
  obtain ⟨q, place⟩ := resumes.place
  have place : s'.cursor = .between q ('-' :: '-' :: comment ++ '\n' :: (statement.sql.toList ++
      (statement.delimiter.display.toList ++ '\n' :: after))) := by
    rw [place, spelled]
    simp only [List.append_assoc, List.cons_append, List.nil_append]
  obtain ⟨z', header, twins', place'⟩ :=
    passes_comment (visits_native again here) twins oneLine place
  obtain ⟨w, f', t', statement', passes', pass, body, ahead, resumes'⟩ :=
    statement_reprinted again here first within last twins' place'
  exact ⟨w, f', t', statement', passes_trans header passes', pass, body, ahead, resumes',
    .found (visits_passes visits passes) last⟩

/-- All statements to come are those of what is printed. -/
theorem remaining_reprinted {statements : List Statement}
    (visits : Visits v.dialect v.dialect.defaultDelimiter script s none found)
    (resumes : Resumes s s' (CommandLine.statementsText false statements).toList)
    (split : s.remaining.2 = .ok statements) :
    ∃ statements', s'.remaining.2 = .ok statements' ∧
      statements'.map Statement.body = statements.map Statement.body := by
  have live := (visits_native again visits).live
  have live' : s'.exhausted = false := resumes.twins.alike.exhausted.trans live
  induction statements generalizing s s' found with
  | nil =>
    rcases remaining_ok_cases live split with ⟨-, t, next⟩ | ⟨_, _, _, same, -⟩
    · obtain ⟨u, f, passes, finished⟩ := passes_of_finished next
      obtain ⟨rfl, -, outside, -⟩ := pass_finished finished
      have twins := (passes_idle again passes rfl visits).2 resumes.twins
      obtain ⟨q, place⟩ := resumes.place
      have ended : s'.cursor.ahead = [] := by rw [place]; rfl
      have last := next_of_blanks (s := s') (twins.alike.blocks.trans outside)
        (by rw [ended]; exact nofun)
      rw [remaining_of_none live' last]
      exact ⟨[], rfl, rfl⟩
    · cases same
  | cons statement later ih =>
    rcases remaining_ok_cases live split with ⟨none, -⟩ | ⟨t, _, _, same, next, rest⟩
    · cases none
    · cases same
      have printed : (CommandLine.statementsText false (statement :: later)).toList =
          (CommandLine.statementText statement).toList ++
            (CommandLine.statementsText false later).toList := by
        simp [CommandLine.statementsText]
      rw [printed] at resumes
      obtain ⟨z, f, t', statement', passes, pass, body, ahead, resumes', visits'⟩ :=
        next_reprinted again visits resumes next
      have live' : t'.exhausted = false :=
        resumes'.twins.alike.exhausted.trans (visits_native again visits').live
      obtain ⟨later', split', bodies⟩ := ih visits' resumes' rest (visits_native again visits').live
        live'
      have behind : t'.onward none = .ok later' := by
        have feed : Step t' none (t'.skip 1) none := .gap ahead rfl rfl
        rw [onward_of_passes (classified_none t') (.step feed (.refl _ _)),
          onward_none (s := t'.skip 1) live', split']
      refine ⟨statement' :: later', ?_, ?_⟩
      · rw [← onward_none (resumes.twins.alike.exhausted.trans live),
          onward_of_passes (classified_none s') passes, onward_of_found live' pass, behind]
        rfl
      · rw [List.map_cons, List.map_cons, body, bodies]

end

end Session

/-- What is printed of a script's statements has the same statements, with the same delimiters. -/
theorem split_statementsText {v : Vendor} {script : String} {statements : List Statement}
    (again : Reprintable v script) (found : split v.dialect script = .ok statements) :
    ∃ statements',
      split v.dialect (CommandLine.statementsText false statements) = .ok statements' ∧
      statements'.map Statement.body = statements.map Statement.body := by
  refine Session.remaining_reprinted again .start ⟨.between _ _ _, [], ?_⟩ found
  exact Cursor.start_eq_between _

/-- A block that ends with a slash, and a query whose comments are within it. -/
theorem split_statementsText_slash :
    let script := "BEGIN NULL; -- c\nEND; -- d\n/\nSELECT (1) -- e\n  FROM dual;"
    let statements : List Statement :=
      [⟨1, 0, 26, "BEGIN NULL; -- c\nEND; -- d", .slash⟩,
        ⟨4, 29, 56, "SELECT (1) -- e\n  FROM dual", .semicolon⟩]
    split .oracle script = .ok statements ∧
      ∃ statements', split .oracle (CommandLine.statementsText false statements) = .ok statements' ∧
        statements'.map Statement.body = statements.map Statement.body := by
  intro script statements
  have found : split Vendor.oracle.dialect script = .ok statements := by decide +kernel
  have again : Reprintable .oracle script := by
    refine .of_trail (n := 99) rfl ?_ ?_ ?_ <;> decide +kernel
  exact ⟨found, split_statementsText again found⟩

/-- An inline delimiter printed behind a comment is part of it. -/
theorem split_statementsText_comment :
    let statements : List Statement := [⟨1, 0, 13, "SELECT 1 -- c", .semicolon⟩]
    split .generic "SELECT 1 -- c" = .ok statements ∧
      CommandLine.statementsText false statements = "-- line 1\nSELECT 1 -- c;\n" ∧
      split .generic "-- line 1\nSELECT 1 -- c;\n" =
        .ok [⟨2, 10, 24, "SELECT 1 -- c;", .semicolon⟩] := by
  decide +kernel

end SqlBoundary
