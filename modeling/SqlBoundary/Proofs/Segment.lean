import SqlBoundary.Proofs.Filler
import SqlBoundary.Proofs.Reading

/-!
# How the text ahead is used up

While a script is read, what has been passed since the last statement is a gap and, once a
draft has begun, the text of the draft. When a statement is found, this invariant leaves a
`Segment`: gap, text, blanks and the closing delimiter, in this order and with nothing else.
Without directives the gap is made of fillers.
-/

namespace SqlBoundary

open Text

/-- The statement is the part `text` of a script that comes after `before`. -/
structure Statement.Spans (statement : Statement) (before text : List Char) : Prop where
  line : statement.line = before.count '\n' + 1
  start : statement.start = byteSize before
  stop : statement.stop = byteSize before + byteSize text
  sql : statement.sql = String.ofList text

theorem Statement.Spans.eq_whole {statement : Statement} {text : List Char}
    (spans : statement.Spans [] text) :
    statement = ⟨1, 0, byteSize text, String.ofList text, statement.delimiter⟩ := by
  obtain ⟨line, start, stop, sql⟩ := spans
  cases statement
  simp only [List.count_nil, Nat.zero_add, byteSize_nil] at line start stop sql
  rw [line, start, stop, sql]

/-- Not empty, and with a blank at neither end. -/
structure Trimmed (text : List Char) : Prop where
  first : ∃ c rest, text = c :: rest ∧ isBlank c = false
  last : ∀ c ∈ text.getLast?, isBlank c = false

theorem trimmed_trimEnd {c : Char} (solid : isBlank c = false) (rest : List Char) :
    Trimmed (trimEnd (c :: rest)) := by
  obtain ⟨more, trim⟩ := trimEnd_cons solid rest
  exact ⟨⟨c, more, trim, solid⟩, fun x hx => trimEnd_getLast? hx⟩

namespace Session

variable {s t u : Session} {draft e : Option Draft} {d : Delimiter} {p ahead : List Char}

/-- Reading from between `p` and `ahead` has come so far: first a gap, then the draft's text. -/
inductive Underway (d : Delimiter) (p ahead : List Char) (s : Session) : Option Draft → Prop
  | outside (gap : List Char) (split : ahead = gap ++ s.cursor.ahead)
      (place : s.cursor = .between (p ++ gap) s.cursor.ahead)
      (fillers : s.dialect.delimiterDirective = false →
        Fillers s.dialect d p gap s.cursor.ahead) : Underway d p ahead s none
  | inside (gap text : List Char) {draft : Draft} (split : ahead = gap ++ text ++ s.cursor.ahead)
      (place : s.cursor = .between (p ++ gap ++ text) s.cursor.ahead)
      (start : draft.start = .between (p ++ gap) (text ++ s.cursor.ahead))
      (fillers : s.dialect.delimiterDirective = false →
        Fillers s.dialect d p gap (text ++ s.cursor.ahead))
      (solid : ∃ c rest, text ++ s.cursor.ahead = c :: rest ∧ isBlank c = false)
      (moved : text ≠ [] ∨ s.Stuck draft) : Underway d p ahead s (some draft)

theorem skip_place {passed : List Char} (place : s.cursor = .between passed s.cursor.ahead)
    (n : Nat) : s.cursor.skip n =
      .between (passed ++ s.cursor.ahead.take n) (s.cursor.ahead.drop n) := by
  conv => lhs; rw [place]
  exact Cursor.skip_between n passed s.cursor.ahead

/-- The next pass takes a directive that sets this delimiter. -/
inductive Directs (s : Session) (draft : Option Draft) (x : Delimiter) : Session → Prop
  | intro {c : Char} {rest : List Char} {u : Session} {y : Draft}
      (ahead : s.cursor.ahead = c :: rest) (solid : s.gap? draft c = none)
      (begun : s.begin draft = .ok (u, y))
      (token : u.dialect.token u.context.startsWord c rest = .word)
      (may : u.mayDirect y = true) (line : u.directive? = .ok (some x)) :
      Directs s draft x (u.direct x)

theorem Directs.supported {x : Delimiter} (h : Directs s draft x t) :
    s.dialect.delimiterDirective = true := by
  obtain ⟨-, -, begun, -, may, -⟩ := h
  obtain ⟨kind, rfl⟩ := begin_ok begun
  exact (mayDirect_iff.mp may).2.2

/-- A step that leaves no statement passes a filler, outside of one, or takes a directive. -/
theorem step_to_none (h : Step s draft t none) :
    (draft = none ∧ t.scriptDelimiter = s.scriptDelimiter ∧ ∃ n, t.cursor = s.cursor.skip n ∧
      ∀ {before : List Char}, s.cursor = .between before s.cursor.ahead →
        Filler s.dialect s.context.delimiter before (s.cursor.ahead.take n)
          (s.cursor.ahead.drop n)) ∨
      ∃ x, Directs s draft x t := by
  generalize none : none = e at h
  cases h with
  | @gap _ c rest g n ahead found length =>
    exact Or.inl ⟨rfl, rfl, n, rfl, fun place => filler_of_gap place ahead found length _⟩
  | @delimiter c rest n ahead found =>
    have here := (delimiter_of_gap? found).2
    exact Or.inl ⟨rfl, rfl, n, rfl,
      fun place => .delimiter (occurs_of_delimiterLength? place here)⟩
  | text => cases none
  | symbol => cases none
  | directive ahead solid begun token may line =>
    exact Or.inr ⟨_, .intro ahead solid begun token may line⟩
  | word _ _ _ _ _ taken =>
    obtain ⟨rfl, -⟩ := takeWord_more taken
    cases none

/-- The script's own delimiter changes only by a directive. -/
theorem step_script (h : Step s draft t e) :
    t.scriptDelimiter = s.scriptDelimiter ∨ e = none ∧ ∃ x, Directs s draft x t := by
  cases h with
  | gap => exact Or.inl rfl
  | delimiter => exact Or.inl rfl
  | text _ _ begun =>
    obtain ⟨kind, rfl⟩ := begin_ok begun
    exact Or.inl rfl
  | symbol _ _ begun =>
    obtain ⟨kind, rfl⟩ := begin_ok begun
    rw [countParen_eq]
    exact Or.inl rfl
  | directive ahead solid begun token may line =>
    exact Or.inr ⟨rfl, _, .intro ahead solid begun token may line⟩
  | word _ _ begun _ _ taken =>
    obtain ⟨kind, rfl⟩ := begin_ok begun
    obtain ⟨-, blocks, lastClosed, warnings, rfl⟩ := takeWord_more taken
    rw [classify_eq]
    exact Or.inl rfl

/-- A statement is only given up for a directive. -/
theorem directive_of_step {x : Draft} (h : Step s (some x) t none) :
    s.dialect.delimiterDirective = true := by
  rcases step_to_none h with ⟨none, -⟩ | ⟨y, directs⟩
  · cases none
  · exact directs.supported

/-- Outside statements a step passes a filler, directives apart. -/
theorem filler_of_step {before : List Char} (h : Step s none t none)
    (place : s.cursor = .between before s.cursor.ahead) :
    ∃ n, t.cursor = s.cursor.skip n ∧ (s.dialect.delimiterDirective = false →
      Filler s.dialect s.context.delimiter before (s.cursor.ahead.take n)
        (s.cursor.ahead.drop n)) := by
  rcases step_to_none h with ⟨-, -, n, moves, filler⟩ | ⟨x, directs⟩
  · exact ⟨n, moves, fun _ => filler place⟩
  · obtain ⟨n, moves⟩ := step_skip h
    exact ⟨n, moves, fun plain => absurd directs.supported (by simp [plain])⟩

/-- A step cuts the text ahead in two: what it passes, and what it leaves. -/
theorem step_cut (h : Step s draft t e) : ∃ piece, s.cursor.ahead = piece ++ t.cursor.ahead ∧
    (∀ {passed : List Char}, s.cursor = .between passed s.cursor.ahead →
      t.cursor = .between (passed ++ piece) t.cursor.ahead) := by
  obtain ⟨n, moves⟩ := step_skip h
  have rest : t.cursor.ahead = s.cursor.ahead.drop n := by rw [moves, Cursor.skip_ahead]
  refine ⟨s.cursor.ahead.take n, ?_, ?_⟩
  · rw [rest, List.take_append_drop]
  · intro passed place
    rw [rest, moves]
    exact skip_place place n

/-- Passes cut the text ahead in two. -/
theorem passes_cut {f : Option Draft} (h : Passes s draft u f) :
    ∃ piece, s.cursor.ahead = piece ++ u.cursor.ahead ∧
    (∀ {passed : List Char}, s.cursor = .between passed s.cursor.ahead →
      u.cursor = .between (passed ++ piece) u.cursor.ahead) := by
  induction h with
  | refl =>
    refine ⟨[], rfl, ?_⟩
    intro passed place
    rw [List.append_nil]
    exact place
  | step first _ ih =>
    obtain ⟨piece, split, moved⟩ := step_cut first
    obtain ⟨pieces, splits, moves⟩ := ih
    refine ⟨piece ++ pieces, by rw [split, splits, List.append_assoc], ?_⟩
    intro passed place
    rw [← List.append_assoc]
    exact moves (moved place)

/-- From one gap into the next, or on within the same. -/
theorem step_outside {gap : List Char} (h : Step s none t none)
    (split : ahead = gap ++ s.cursor.ahead)
    (place : s.cursor = .between (p ++ gap) s.cursor.ahead)
    (active : s.dialect.delimiterDirective = false → s.context.delimiter = d)
    (fillers : s.dialect.delimiterDirective = false →
      Fillers s.dialect d p gap s.cursor.ahead) : Underway d p ahead t none := by
  obtain ⟨n, moves, filler⟩ := filler_of_step h place
  have rest : t.cursor.ahead = s.cursor.ahead.drop n := by rw [moves, Cursor.skip_ahead]
  refine .outside (gap ++ s.cursor.ahead.take n) ?_ ?_ ?_
  · rw [rest, List.append_assoc, List.take_append_drop, split]
  · rw [rest, moves, skip_place place, List.append_assoc]
  · rw [step_dialect h, rest]
    intro plain
    refine .snoc ?_ (active plain ▸ filler plain)
    rw [List.take_append_drop]
    exact fillers plain

/-- A statement begins. -/
theorem step_into {gap : List Char} {x : Draft} (h : Step s none t (some x))
    (hc : s.Classified none) (split : ahead = gap ++ s.cursor.ahead)
    (place : s.cursor = .between (p ++ gap) s.cursor.ahead)
    (fillers : s.dialect.delimiterDirective = false →
      Fillers s.dialect d p gap s.cursor.ahead) : Underway d p ahead t (some x) := by
  obtain ⟨piece, whole, moved⟩ := step_cut h
  refine .inside gap piece ?_ (moved place) ?_ ?_ ?_ ?_
  · rw [List.append_assoc, ← whole, split]
  · rw [step_start h, ← whole]
    exact place
  · rw [step_dialect h, ← whole]
    exact fillers
  · rw [← whole]
    exact step_solid h
  · rcases step_advances h hc with shorter | ⟨y, held, stuck⟩
    · refine Or.inl ?_
      rintro rfl
      rw [whole, List.nil_append] at shorter
      exact absurd shorter (Nat.lt_irrefl _)
    · cases held
      exact Or.inr stuck

/-- A statement goes on, or is given up for a directive. -/
theorem step_inside {gap text : List Char} {x : Draft} (h : Step s (some x) t e)
    (split : ahead = gap ++ text ++ s.cursor.ahead)
    (place : s.cursor = .between (p ++ gap ++ text) s.cursor.ahead)
    (start : x.start = .between (p ++ gap) (text ++ s.cursor.ahead))
    (fillers : s.dialect.delimiterDirective = false →
      Fillers s.dialect d p gap (text ++ s.cursor.ahead))
    (solid : ∃ c rest, text ++ s.cursor.ahead = c :: rest ∧ isBlank c = false)
    (moved : text ≠ []) : Underway d p ahead t e := by
  obtain ⟨piece, whole, place'⟩ := step_cut h
  have place' := place' place
  rw [whole, ← List.append_assoc] at split start solid fillers
  rw [List.append_assoc _ text] at place'
  cases e with
  | none =>
    refine .outside (gap ++ (text ++ piece)) ?_ ?_ ?_
    · rw [split]
      simp only [List.append_assoc]
    · rw [← List.append_assoc]
      exact place'
    · rw [step_dialect h]
      intro plain
      exact absurd (directive_of_step h) (by simp [plain])
  | some y =>
    refine .inside gap (text ++ piece) ?_ place' ?_ ?_ solid ?_
    · rw [split]
      simp only [List.append_assoc]
    · rw [step_start h]
      exact start
    · rw [step_dialect h]
      exact fillers
    · exact Or.inl (by simp [moved])

theorem step_underway (h : Step s draft t e) (hc : s.Classified draft) (own : s.Owned draft)
    (script : s.dialect.delimiterDirective = false → s.scriptDelimiter = d)
    (hu : Underway d p ahead s draft) : Underway d p ahead t e := by
  cases hu with
  | outside gap split place fillers =>
    cases e with
    | none =>
      refine step_outside h split place ?_ fillers
      intro plain
      rcases own with own | ⟨held, -⟩
      · rw [own, script plain]
      · cases held
    | some y => exact step_into h hc split place fillers
  | inside gap text split place start fillers solid moved =>
    rcases moved with moved | stuck
    · exact step_inside h split place start fillers solid moved
    · have same := (pass_of_stuck stuck hc).symm.trans (pass_of_step h)
      cases same
      exact .inside gap text split place start fillers solid (Or.inr (stuck_any stuck _))

/-- All that is kept while a statement is looked for from between `p` and `ahead`. -/
structure Kept (d : Delimiter) (p ahead : List Char) (s : Session) (draft : Option Draft) :
    Prop where
  classified : s.Classified draft
  owned : s.Owned draft
  script : s.dialect.delimiterDirective = false → s.scriptDelimiter = d
  underway : Underway d p ahead s draft

theorem step_kept (h : Step s draft t e) (hk : Kept d p ahead s draft) : Kept d p ahead t e where
  classified := step_classified h hk.classified
  owned := step_owned h hk.owned
  script := by
    rw [step_dialect h]
    intro plain
    rw [step_scriptDelimiter h plain, hk.script plain]
  underway := step_underway h hk.classified hk.owned hk.script hk.underway

theorem passes_kept {f : Option Draft} (h : Passes s draft u f) (hk : Kept d p ahead s draft) :
    Kept d p ahead u f := by
  induction h with
  | refl => exact hk
  | step first _ ih => exact ih (step_kept first hk)

theorem passes_same {f : Option Draft} (h : Passes s draft u f) :
    u.dialect = s.dialect ∧ u.exhausted = s.exhausted := by
  induction h with
  | refl => exact ⟨rfl, rfl⟩
  | step first _ ih => exact ⟨ih.1.trans (step_dialect first), ih.2.trans (step_exhausted first)⟩

/-- A session between two statements: it stands after `p`, with its own delimiter active. -/
structure Idle (p : List Char) (s : Session) : Prop where
  place : s.cursor = .between p s.cursor.ahead
  own : s.context.delimiter = s.scriptDelimiter

theorem kept_of_idle (h : s.Idle p) : Kept s.scriptDelimiter p s.cursor.ahead s none where
  classified := classified_none s
  owned := Or.inl h.own
  script := fun _ => rfl
  underway := .outside [] rfl (by rw [List.append_nil]; exact h.place) (fun _ => .nil)

/-- How the text ahead of `s` is used up when the next statement is found and leaves `t`. -/
structure Segment (s t : Session) (p : List Char) (statement : Statement)
    (gap text blanks closing : List Char) : Prop where
  split : s.cursor.ahead = gap ++ text ++ blanks ++ closing ++ t.cursor.ahead
  spans : statement.Spans (p ++ gap) text
  trimmed : Trimmed text
  blank : ∀ c ∈ blanks, isBlank c = true
  closes : Occurs statement.delimiter (p ++ gap ++ text ++ blanks) closing t.cursor.ahead ∨
    closing = [] ∧ t.cursor.ahead = []
  active : statement.delimiter = t.scriptDelimiter ∨
    s.dialect.blocks = .oracle ∧ statement.delimiter = .slash
  fillers : s.dialect.delimiterDirective = false →
    Fillers s.dialect s.scriptDelimiter p gap (text ++ blanks ++ closing ++ t.cursor.ahead)
  script : s.dialect.delimiterDirective = false → t.scriptDelimiter = s.scriptDelimiter
  dialect : t.dialect = s.dialect
  exhausted : t.exhausted = s.exhausted
  idle : t.Idle (p ++ gap ++ text ++ blanks ++ closing)

theorem spans_cut {x : Draft} {before text after : List Char}
    (start : x.start = .between before (text ++ after)) :
    (s.cut x (.between (before ++ text) after)).Spans before (trimEnd text) := by
  have whole : x.start.upTo (.between (before ++ text) after) = text := by
    rw [start]
    exact Cursor.upTo_between before text after
  constructor
  · simp only [cut, start]
    rfl
  · simp only [cut, start]
    rfl
  · simp only [cut, whole]
    rw [start]
    rfl
  · simp only [cut, whole]

/-- The session when all statements of a script have been asked for. -/
def final (dialect : Dialect) (d : Delimiter) (script : String) : Session :=
  (ofScript dialect d script).remaining.1

/-- Blanks hold no statement. -/
theorem next_of_blanks (outside : s.context.blocks = [])
    (blank : ∀ c ∈ s.cursor.ahead, isBlank c = true) :
    s.next = ((s.skip s.cursor.ahead.length).restored, .ok none) := by
  have passes : Passes s none (s.skip s.cursor.ahead.length) none :=
    passes_blanks blank (List.append_nil _).symm
  have ended : (s.skip s.cursor.ahead.length).cursor.ahead = [] := by
    rw [skip_cursor, Cursor.skip_ahead, List.drop_length]
  have answer : ((s.skip s.cursor.ahead.length).pass none).answer? =
      some ((s.skip s.cursor.ahead.length).restored, .ok none) := by
    rw [pass_of_end ended, finish_outside (s := s.skip s.cursor.ahead.length) outside]
    rfl
  exact (read_of_passes passes (classified_none s)).trans (read_of_answer answer)

/-- A statement that begins with the script and has nothing but blanks behind it is the only one,
and its text is what has been read. -/
theorem splitFrom_of_single {dialect : Dialect} {script : String} {text : List Char} {x : Draft}
    {statement : Statement} (h : Passes (.ofScript dialect d script) none u (some x))
    (start : x.start = .start script.toList) (split : script.toList = text ++ u.cursor.ahead)
    (found : u.pass (some x) = .found t statement)
    (blank : ∀ c ∈ t.cursor.ahead, isBlank c = true) :
    splitFrom dialect d script = .ok [⟨1, 0, byteSize (trimEnd text),
        String.ofList (trimEnd text), u.context.delimiter⟩] ∧
      (final dialect d script).context.blocks = [] ∧
      (final dialect d script).warnings = u.warnings := by
  have closed := outside_of_found found
  have live := (passes_same h).2
  obtain ⟨y, same, cut, place⟩ := pass_found found
  obtain rfl := Option.some.inj same
  obtain ⟨blocks, warnings, exhausted⟩ : t.context.blocks = [] ∧ t.warnings = u.warnings ∧
      t.exhausted = u.exhausted := by
    rcases place with ⟨_, _, _, -, -, rfl⟩ | ⟨-, -, rfl⟩
    · exact ⟨closed, rfl, rfl⟩
    · exact ⟨closed, rfl, rfl⟩
  have first : (ofScript dialect d script).next = (t, .ok (some statement)) := by
    have answer : (u.pass (some x)).answer? = some (t, .ok (some statement)) := by
      rw [found]
      rfl
    exact (read_of_passes h (classified_none _)).trans (read_of_answer answer)
  have last := next_of_blanks blocks blank
  have spans : statement.Spans [] (trimEnd text) := by
    obtain ⟨piece, ahead, moves⟩ := passes_cut h
    obtain rfl : text = piece := List.append_cancel_right (split.symm.trans ahead)
    have begins : (ofScript dialect d script).cursor =
        .between [] (ofScript dialect d script).cursor.ahead := rfl
    rw [cut, moves begins]
    exact spans_cut (start.trans (congrArg (Cursor.between []) split))
  have delimiter : statement.delimiter = u.context.delimiter := by
    rw [cut]
    rfl
  have all : (ofScript dialect d script).remaining =
      ({ (t.skip t.cursor.ahead.length).restored with exhausted := true }, .ok [statement]) := by
    rw [remaining_of_found rfl first, remaining_of_none (exhausted.trans live) last]
    rfl
  rw [splitFrom, final, all, ← delimiter, ← spans.eq_whole]
  exact ⟨rfl, blocks, warnings⟩

/-- So it is if nothing but a semicolon is behind it. -/
theorem splitFrom_of_semicolon {dialect : Dialect} {script : String} {text : List Char} {x : Draft}
    (h : Passes (.ofScript dialect d script) none u (some x))
    (start : x.start = .start script.toList) (whole : script.toList = text ++ [';'])
    (ahead : u.cursor.ahead = [';']) (outside : u.context.blocks = [])
    (level : u.context.parens = 0) (delimiter : u.context.delimiter = .semicolon) :
    splitFrom dialect d script = .ok [⟨1, 0, byteSize (trimEnd text),
        String.ofList (trimEnd text), .semicolon⟩] ∧
      (final dialect d script).context.blocks = [] ∧
      (final dialect d script).warnings = u.warnings := by
  have active := delimiterLength?_semicolon outside level delimiter ahead
  have ended : (u.skip 1).restored.cursor.ahead = [] := by
    change (u.cursor.skip 1).ahead = []
    rw [Cursor.skip_ahead, ahead]
    rfl
  have nothing : ∀ c ∈ (u.skip 1).restored.cursor.ahead, isBlank c = true := by
    rw [ended]
    exact List.forall_mem_nil _
  rw [← delimiter]
  exact splitFrom_of_single h start (whole.trans (by rw [ahead]))
    (pass_of_delimiter ahead (by decide) active) nothing

/-- What ends a statement: a delimiter, or nothing at the end of the script. -/
theorem closing_of_found {draft : Option Draft} {statement : Statement} {passed : List Char}
    (found : u.pass draft = .found t statement)
    (place : u.cursor = .between passed u.cursor.ahead) :
    t.scriptDelimiter = u.scriptDelimiter ∧ t.dialect = u.dialect ∧ t.exhausted = u.exhausted ∧
      ∃ closing, u.cursor.ahead = closing ++ t.cursor.ahead ∧ t.Idle (passed ++ closing) ∧
        (Occurs u.context.delimiter passed closing t.cursor.ahead ∨
          closing = [] ∧ t.cursor.ahead = []) := by
  obtain ⟨x, -, -, ⟨c, rest, n, ahead, delimiter, rfl⟩ | ⟨ahead, -, rfl⟩⟩ := pass_found found
  · have rest : ((u.skip n).restored).cursor.ahead = u.cursor.ahead.drop n :=
      Cursor.skip_ahead n u.cursor
    refine ⟨rfl, rfl, rfl, u.cursor.ahead.take n, ?_, ⟨?_, rfl⟩, ?_⟩
    · rw [rest, List.take_append_drop]
    · rw [rest]
      exact skip_place place n
    · rw [rest]
      exact Or.inl (occurs_of_delimiterLength? place (delimiter_of_gap? delimiter).2)
  · refine ⟨rfl, rfl, rfl, [], rfl, ⟨?_, rfl⟩, Or.inr ⟨rfl, ahead⟩⟩
    rw [List.append_nil]
    exact place

theorem segment_of_found {statement : Statement} (h : s.Idle p)
    (found : s.next = (t, .ok (some statement))) :
    ∃ gap text blanks closing, Segment s t p statement gap text blanks closing := by
  obtain ⟨u, f, passes, last⟩ := passes_of_found found
  obtain ⟨dialect, exhausted⟩ := passes_same passes
  obtain ⟨classified, owned, script, underway⟩ := passes_kept passes (kept_of_idle h)
  obtain ⟨draft, rfl, rfl, -⟩ := pass_found last
  cases underway with
  | inside gap whole split place start fillers solid moved =>
    obtain ⟨c, rest, head, nonblank⟩ := solid
    have nonempty : ∃ tail, whole = c :: tail := by
      rcases moved with moved | stuck
      · obtain ⟨x, tail, rfl⟩ := List.exists_cons_of_ne_nil moved
        exact ⟨tail, by rw [(List.cons.inj head).1]⟩
      · have again := pass_of_stuck stuck classified
        rw [last] at again
        cases again
    obtain ⟨tail, rfl⟩ := nonempty
    obtain ⟨same, dialect', exhausted', closing, rest, idle, closes⟩ :=
      closing_of_found last place
    have spans := spans_cut (s := u) start
    rw [← place] at spans
    obtain ⟨blanks, trim, blank⟩ := trimEnd_append_blanks (c :: tail)
    rw [rest] at split fillers
    rw [trim] at split fillers closes idle
    refine ⟨gap, trimEnd (c :: tail), blanks, closing, ?_, spans, trimmed_trimEnd nonblank tail,
      blank, ?_, ?_, ?_, ?_, dialect'.trans dialect, exhausted'.trans exhausted, ?_⟩
    · rw [split]
      simp only [List.append_assoc]
    · rw [List.append_assoc _ _ blanks]
      exact closes
    · rw [same]
      rcases owned with own | ⟨-, grammar, slash⟩
      · exact Or.inl own
      · exact Or.inr ⟨by rw [← dialect, grammar], slash⟩
    · intro plain
      rw [← dialect] at plain ⊢
      rw [List.append_assoc _ closing]
      exact fillers plain
    · intro plain
      rw [same, script (by rw [dialect]; exact plain)]
    · rw [List.append_assoc _ _ blanks]
      exact idle

theorem fillers_of_finished (h : s.Idle p) (finished : s.next = (t, .ok none))
    (plain : s.dialect.delimiterDirective = false) :
    Fillers s.dialect s.scriptDelimiter p s.cursor.ahead [] := by
  obtain ⟨u, f, passes, last⟩ := passes_of_finished finished
  have dialect := (passes_same passes).1
  have underway := (passes_kept passes (kept_of_idle h)).underway
  obtain ⟨rfl, ahead, -, -⟩ := pass_finished last
  cases underway with
  | outside gap split place fillers =>
    rw [dialect, ahead] at fillers
    rw [ahead, List.append_nil] at split
    rw [split]
    exact fillers plain

theorem idle_ofScript (dialect : Dialect) (d : Delimiter) (script : String) :
    (ofScript dialect d script).Idle [] :=
  ⟨rfl, rfl⟩

end Session

end SqlBoundary
