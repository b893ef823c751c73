import SqlBoundary.Proofs.Calls
import SqlBoundary.Proofs.Constructs
import SqlBoundary.Proofs.DirectiveLine
import SqlBoundary.Proofs.Framed

/-!
# What directives give up

A directive is read wherever no word of the pending statement has been, and that statement is then
given up: its text belongs to no statement and is lost. It may be a literal, a quoted identifier, a
number, signs and parentheses. `directives_accounted` says where every character of a script
goes, and that a directive gives up nothing exactly where no statement is pending.
-/

namespace SqlBoundary

open Text Lexeme

/-- The character begins neither blanks nor a comment, no quote and no word. -/
structure Dialect.Sign (dialect : Dialect) (c : Char) (after : List Char) : Prop where
  solid : isBlank c = false
  comment : dialect.comment? (c :: after) = none
  dollar : dialect.dollarQuote? c after = none
  quote : dialect.quote? c after = none
  word : dialect.startsWord c = false

/-- One scrap of text that is read without a word: blanks or a comment, a complete literal or quoted
identifier, or a sign. The delimiter of the gap is empty, and so is never met. -/
inductive Scrap (dialect : Dialect) (before : List Char) : List Char → List Char → Prop
  | gap {text after : List Char} (filler : Filler dialect (.inline "") before text after) :
      Scrap dialect before text after
  | quoted {lead text after : List Char} {construct : Construct} {marks : Marks}
      (starts : Starts dialect lead (text ++ after) construct marks)
      (complete : marks.Complete text after) : Scrap dialect before (lead ++ text) after
  | symbol {c : Char} {after : List Char} (sign : dialect.Sign c after) :
      Scrap dialect before [c] after

/-- A concatenation of such scraps. -/
inductive WithoutWords (dialect : Dialect) (before : List Char) : List Char → List Char → Prop
  | nil {after : List Char} : WithoutWords dialect before [] after
  | snoc {text piece after : List Char}
      (earlier : WithoutWords dialect before text (piece ++ after))
      (last : Scrap dialect (before ++ text) piece after) :
      WithoutWords dialect before (text ++ piece) after

/-- What becomes of the first part of a script, up to the end of a statement or of a directive:
fillers, statements with blanks and a delimiter behind each, and directives with the text that each
gives up. The delimiter is that of the script from there on. -/
inductive Accounted (dialect : Dialect) (d : Delimiter) :
    List Char → List Char → Delimiter → List Statement → Prop
  | start {after : List Char} : Accounted dialect d [] after d []
  | statement {passed gap text blanks closing after : List Char} {active : Delimiter}
      {found : List Statement} {statement : Statement}
      (earlier : Accounted dialect d passed (gap ++ text ++ blanks ++ closing ++ after) active
        found)
      (fillers : Fillers dialect active passed gap (text ++ blanks ++ closing ++ after))
      (spans : statement.Spans (passed ++ gap) text) (trimmed : Trimmed text)
      (blank : ∀ c ∈ blanks, isBlank c = true)
      (closes : Occurs statement.delimiter (passed ++ gap ++ text ++ blanks) closing after ∨
        closing = [] ∧ after = [])
      (own : statement.delimiter = active ∨
        dialect.blocks = .oracle ∧ statement.delimiter = .slash) :
      Accounted dialect d (passed ++ gap ++ text ++ blanks ++ closing) after active
        (found ++ [statement])
  | directive {passed gap dropped line after : List Char} {active x : Delimiter}
      {found : List Statement}
      (earlier : Accounted dialect d passed (gap ++ dropped ++ line ++ after) active found)
      (fillers : Fillers dialect active passed gap (dropped ++ line ++ after))
      (wordless : WithoutWords dialect (passed ++ gap) dropped (line ++ after))
      (directive : IsDirective x line) (ends : LineEnds after) :
      Accounted dialect d (passed ++ gap ++ dropped ++ line) after x found

/-- A character that is read as a symbol and begins no comment is a sign. -/
theorem Dialect.Sign.of_token {dialect : Dialect} {p : Char → Bool} {c x : Char} {rest : List Char}
    (h : dialect.token p c rest = .symbol x) (solid : isBlank c = false)
    (comment : dialect.comment? (c :: rest) = none)
    (same : p c = dialect.startsWord c) : dialect.Sign c rest := by
  rw [Dialect.token] at h
  split at h
  · cases h
  · next dollar =>
    split at h
    · cases h
    · next quote =>
      split at h
      · cases h
      · next other => exact ⟨solid, comment, dollar, quote, same ▸ Bool.eq_false_iff.mpr other⟩

namespace Session

variable {s t u : Session} {draft e : Option Draft} {x y : Draft} {found : List Statement}
variable {dialect : Dialect} {d : Delimiter} {script : String}
variable {before piece : List Char}

theorem take_of_cut {cs : List Char} {n : Nat} (cut : cs = piece ++ cs.drop n) :
    piece = cs.take n :=
  List.append_cancel_right (cut.symm.trans (List.take_append_drop n cs).symm)

/-- While a statement has no words, a step takes one such scrap of it. -/
theorem scrap_of_step (h : Step s draft t (some x)) (typed : s.Typed draft)
    (place : s.cursor = .between before s.cursor.ahead)
    (cut : s.cursor.ahead = piece ++ t.cursor.ahead) (fresh : x.leading = []) :
    (∀ y ∈ draft, y.leading = []) ∧ Scrap s.dialect before piece t.cursor.ahead := by
  generalize held : some x = e at h
  cases h with
  | @gap _ c rest g n ahead gap length =>
    subst held
    rw [skip_cursor, Cursor.skip_ahead] at cut ⊢
    rw [take_of_cut cut]
    refine ⟨?_, .gap (filler_of_gap place ahead gap length _)⟩
    rintro y ⟨⟩
    exact fresh
  | delimiter => cases held
  | @text _ c rest u y n ahead solid begun token =>
    cases held
    rw [begin_dialect begun] at token
    obtain ⟨lead, text, after, construct, marks, whole, starts, complete, rfl⟩ :=
      Dialect.complete_of_token token
    rw [skip_cursor, begin_cursor begun, Cursor.skip_ahead] at cut ⊢
    rw [take_of_cut cut]
    rw [ahead, whole, ← List.append_assoc, List.take_left, List.drop_left]
    exact ⟨fresh_of_begin begun fresh, .quoted starts complete⟩
  | @symbol _ c rest u y ahead solid begun token =>
    cases held
    have kind := typed_begin typed begun
    rw [begin_dialect begun] at token
    obtain ⟨blank, -, -, comment⟩ := gap?_eq_none_iff.mp solid
    rw [ahead] at comment
    have sign := Dialect.Sign.of_token token blank comment (s.dialect.startsWord_eq kind c)
    have moved : ((u.skip 1).countParen c).cursor = s.cursor.skip 1 := by
      obtain ⟨kind, rfl⟩ := begin_ok begun
      rw [countParen_eq]
      rfl
    rw [moved, Cursor.skip_ahead] at cut ⊢
    rw [take_of_cut cut, ahead]
    exact ⟨fresh_of_begin begun fresh, .symbol sign⟩
  | directive => cases held
  | word _ _ _ _ _ taken =>
    obtain ⟨rfl, -⟩ := takeWord_more taken
    cases held
    exact absurd fresh (leading_afterWord _ _)

/-- Where a run is: in a gap after the last statement or directive, or in the text of a statement
that is pending. -/
inductive Accounts (dialect : Dialect) (d : Delimiter) (script : String) (found : List Statement)
    (s : Session) : Option Draft → Prop
  | between {passed gap : List Char} (here : s.Between script (passed ++ gap) s.cursor.ahead)
      (done : Accounted dialect d passed (gap ++ s.cursor.ahead) s.scriptDelimiter found)
      (fillers : Fillers dialect s.scriptDelimiter passed gap s.cursor.ahead) :
      Accounts dialect d script found s none
  | within {passed gap text : List Char} {x : Draft}
      (here : s.Between script (passed ++ gap ++ text) s.cursor.ahead)
      (start : x.start = .between (passed ++ gap) (text ++ s.cursor.ahead))
      (done : Accounted dialect d passed (gap ++ text ++ s.cursor.ahead) s.scriptDelimiter found)
      (fillers : Fillers dialect s.scriptDelimiter passed gap (text ++ s.cursor.ahead))
      (solid : ∃ c rest, text ++ s.cursor.ahead = c :: rest ∧ isBlank c = false)
      (moved : text ≠ [] ∨ s.Stuck x)
      (wordless : x.leading = [] → WithoutWords dialect (passed ++ gap) text s.cursor.ahead) :
      Accounts dialect d script found s (some x)

/-- All that a run keeps. -/
structure Tallied (dialect : Dialect) (d : Delimiter) (script : String) (found : List Statement)
    (s : Session) (draft : Option Draft) : Prop where
  same : s.dialect = dialect
  classified : s.Classified draft
  owned : s.Owned draft
  typed : s.Typed draft
  accounts : s.Accounts dialect d script found draft

theorem Between.cut {ahead : List Char} (here : s.Between script before ahead)
    (h : Step s draft t e) : ∃ piece, ahead = piece ++ t.cursor.ahead ∧
      t.Between script (before ++ piece) t.cursor.ahead := by
  obtain ⟨piece, split, moves⟩ := step_cut h
  rw [here.ahead_eq] at split moves
  refine ⟨piece, split, ?_, moves here.place⟩
  rw [List.append_assoc, ← split]
  exact here.whole

/-- Where a directive is to be applied, the next pass takes it. -/
theorem directs_of_setting? {x : Delimiter} (h : s.setting? draft = some x) :
    ∃ t, Directs s draft x t ∧ Step s draft t none := by
  cases ahead : s.cursor.ahead with
  | nil => simp [setting?, ahead] at h
  | cons c rest =>
    cases found : s.gap? draft c with
    | some g =>
      rw [setting?_of_gap ahead found] at h
      cases h
    | none =>
      cases begun : s.begin draft with
      | error fault => simp [setting?, ahead, found, begun] at h
      | ok pair =>
        obtain ⟨u, y⟩ := pair
        rw [setting?_of_begin ahead found begun] at h
        split at h
        · cases h
        · cases h
        · next token =>
          split at h
          · next may =>
            split at h
            · next line =>
              subst h
              exact ⟨u.direct x, .intro ahead found begun token may line,
                .directive ahead found begun token may line⟩
            · cases h
          · cases h

theorem step_keeps_script (h : Step s draft t (some x)) :
    t.scriptDelimiter = s.scriptDelimiter := by
  rw [step_setting h]
  cases set : s.setting? draft with
  | none => rfl
  | some y =>
    obtain ⟨v, -, step⟩ := directs_of_setting? set
    have same := (pass_of_step h).symm.trans (pass_of_step step)
    cases same

/-- After a directive the script goes on in a gap that is still empty. -/
theorem accounts_of_directs {passed gap text : List Char} {x : Delimiter}
    (h : Directs s draft x t) (step : Step s draft t none)
    (here : s.Between script (passed ++ gap ++ text) s.cursor.ahead)
    (done : Accounted dialect d passed (gap ++ text ++ s.cursor.ahead) s.scriptDelimiter found)
    (fillers : Fillers dialect s.scriptDelimiter passed gap (text ++ s.cursor.ahead))
    (wordless : WithoutWords dialect (passed ++ gap) text s.cursor.ahead) :
    t.Accounts dialect d script found none := by
  obtain ⟨line, split, -, directive, ends⟩ := h.split
  obtain ⟨piece, cut, there⟩ := here.cut step
  obtain rfl := List.append_cancel_right (split.symm.trans cut)
  rw [split] at done fillers wordless
  rw [← List.append_assoc] at done fillers
  have account := Accounted.directive done fillers wordless directive ends
  rw [← h.sets] at account
  rw [← List.append_nil (passed ++ gap ++ text ++ line)] at there
  exact .between there account .nil

/-- From one gap into the next, or past a directive. -/
theorem accounts_outside {passed gap : List Char} (h : Step s none t none)
    (same : s.dialect = dialect) (owned : s.Owned none)
    (here : s.Between script (passed ++ gap) s.cursor.ahead)
    (done : Accounted dialect d passed (gap ++ s.cursor.ahead) s.scriptDelimiter found)
    (fillers : Fillers dialect s.scriptDelimiter passed gap s.cursor.ahead) :
    t.Accounts dialect d script found none := by
  rcases step_to_none h with ⟨-, kept, n, moves, filler⟩ | ⟨x, directs⟩
  · obtain ⟨piece, cut, there⟩ := here.cut h
    have filler := filler here.place
    have active : s.context.delimiter = s.scriptDelimiter := by
      rcases owned with own | ⟨held, -⟩
      · exact own
      · cases held
    have ahead : t.cursor.ahead = s.cursor.ahead.drop n := by rw [moves, Cursor.skip_ahead]
    rw [ahead] at cut
    obtain rfl := take_of_cut cut
    rw [← ahead, active, same] at filler
    rw [cut, ← ahead] at done fillers
    rw [← List.append_assoc] at done
    rw [List.append_assoc] at there
    refine .between there ?_ ?_
    · rw [kept]
      exact done
    · rw [kept]
      exact .snoc fillers filler
  · rw [← List.append_nil (passed ++ gap)] at here
    rw [← List.append_nil gap] at done
    exact accounts_of_directs directs h here done fillers .nil

/-- A statement begins. -/
theorem accounts_into {passed gap : List Char} (h : Step s none t (some x))
    (k : Tallied dialect d script found s none)
    (here : s.Between script (passed ++ gap) s.cursor.ahead)
    (done : Accounted dialect d passed (gap ++ s.cursor.ahead) s.scriptDelimiter found)
    (fillers : Fillers dialect s.scriptDelimiter passed gap s.cursor.ahead) :
    t.Accounts dialect d script found (some x) := by
  obtain ⟨piece, cut, there⟩ := here.cut h
  have kept : t.scriptDelimiter = s.scriptDelimiter := step_keeps_script h
  have solid := step_solid h
  have start : x.start = s.cursor := step_start h
  rw [here.place] at start
  rw [cut] at done fillers solid start
  rw [← List.append_assoc] at done
  refine .within there start (kept ▸ done) (kept ▸ fillers) solid ?_ ?_
  · rcases step_advances h k.classified with shorter | ⟨y, held, stuck⟩
    · refine Or.inl ?_
      rintro rfl
      rw [cut, List.nil_append] at shorter
      exact absurd shorter (Nat.lt_irrefl _)
    · cases held
      exact Or.inr stuck
  · intro fresh
    have piece := (scrap_of_step h k.typed here.place cut fresh).2
    rw [k.same, ← List.append_nil (passed ++ gap)] at piece
    exact .snoc .nil piece

/-- A statement goes on, or is given up for a directive. -/
theorem accounts_inside {passed gap text : List Char} (h : Step s (some x) t e)
    (k : Tallied dialect d script found s (some x))
    (here : s.Between script (passed ++ gap ++ text) s.cursor.ahead)
    (start : x.start = .between (passed ++ gap) (text ++ s.cursor.ahead))
    (done : Accounted dialect d passed (gap ++ text ++ s.cursor.ahead) s.scriptDelimiter found)
    (fillers : Fillers dialect s.scriptDelimiter passed gap (text ++ s.cursor.ahead))
    (solid : ∃ c rest, text ++ s.cursor.ahead = c :: rest ∧ isBlank c = false)
    (moved : text ≠ [])
    (wordless : x.leading = [] → WithoutWords dialect (passed ++ gap) text s.cursor.ahead) :
    t.Accounts dialect d script found e := by
  cases e with
  | none =>
    rcases step_to_none h with ⟨none, -⟩ | ⟨y, directs⟩
    · cases none
    · exact accounts_of_directs directs h here done fillers (wordless (directs.fresh x rfl))
  | some y =>
    obtain ⟨piece, cut, there⟩ := here.cut h
    have kept := step_keeps_script h
    have start' : y.start = x.start := step_start h
    rw [start] at start'
    rw [cut, ← List.append_assoc] at start' fillers solid
    rw [cut, ← List.append_assoc, List.append_assoc gap] at done
    rw [List.append_assoc _ text] at there
    refine .within there start' (kept ▸ done) (kept ▸ fillers) solid (Or.inl (by simp [moved])) ?_
    intro fresh
    obtain ⟨before, piece⟩ := scrap_of_step h k.typed here.place cut fresh
    have earlier := wordless (before x rfl)
    rw [cut] at earlier
    rw [k.same] at piece
    exact .snoc earlier piece

theorem step_accounts (h : Step s draft t e) (k : Tallied dialect d script found s draft) :
    t.Accounts dialect d script found e := by
  cases k.accounts with
  | between here done fillers =>
    cases e with
    | none => exact accounts_outside h k.same k.owned here done fillers
    | some y => exact accounts_into h k here done fillers
  | within here start done fillers solid moved wordless =>
    rcases moved with moved | stuck
    · exact accounts_inside h k here start done fillers solid moved wordless
    · have same := (pass_of_stuck stuck k.classified).symm.trans (pass_of_step h)
      cases same
      refine .within here start done fillers solid (Or.inr (stuck_any stuck _)) ?_
      exact fun fresh => absurd fresh (leading_afterWord _ _)

theorem step_tallied (h : Step s draft t e) (k : Tallied dialect d script found s draft) :
    Tallied dialect d script found t e where
  same := (step_dialect h).trans k.same
  classified := step_classified h k.classified
  owned := step_owned h k.owned
  typed := step_typed h k.typed
  accounts := step_accounts h k

/-- The statement that is found is the text since the gap, without the blanks at its end. -/
theorem found_accounts {statement : Statement} (pass : s.pass draft = .found t statement)
    (k : Tallied dialect d script found s draft) :
    t.Accounts dialect d script (found ++ [statement]) none := by
  obtain ⟨x, rfl, rfl, -⟩ := pass_found pass
  cases k.accounts with
  | @within passed gap text _ here start done fillers solid moved =>
    obtain ⟨c, tail, rfl, nonblank⟩ : ∃ c tail, text = c :: tail ∧ isBlank c = false := by
      obtain ⟨c, rest, head, nonblank⟩ := solid
      rcases moved with moved | stuck
      · obtain ⟨x, tail, rfl⟩ := List.exists_cons_of_ne_nil moved
        exact ⟨x, tail, rfl, (List.cons.inj head).1 ▸ nonblank⟩
      · have again := pass_of_stuck stuck k.classified
        rw [pass] at again
        cases again
    obtain ⟨kept, -, -, closing, rest, idle, closes⟩ := closing_of_found pass here.place
    have spans := spans_cut (s := s) start
    rw [← here.place] at spans
    obtain ⟨blanks, trim, blank⟩ := trimEnd_append_blanks (c :: tail)
    have owned : (s.cut x s.cursor).delimiter = s.scriptDelimiter ∨
        dialect.blocks = .oracle ∧ (s.cut x s.cursor).delimiter = .slash := by
      rcases k.owned with own | ⟨-, grammar, slash⟩
      · exact Or.inl own
      · exact Or.inr ⟨by rw [← k.same, grammar], slash⟩
    have whole := here.whole
    rw [rest] at done fillers whole
    rw [trim] at done fillers closes idle whole
    rw [← List.append_assoc gap, ← List.append_assoc (gap ++ _ ++ _)] at done
    rw [← List.append_assoc (_ ++ _) closing] at fillers
    rw [← List.append_assoc (passed ++ gap)] at closes idle whole
    rw [← List.append_assoc _ closing] at whole
    have account := Accounted.statement done fillers spans (trimmed_trimEnd nonblank tail) blank
      closes owned
    rw [← kept] at account
    have there : t.Between script
        (passed ++ gap ++ trimEnd (c :: tail) ++ blanks ++ closing ++ []) t.cursor.ahead := by
      rw [List.append_nil]
      exact ⟨whole, idle.place⟩
    exact .between there account .nil

theorem visits_tallied (h : Visits dialect d script s draft found) :
    Tallied dialect d script found s draft := by
  induction h with
  | start =>
    have here : (ofScript dialect d script).Between script ([] ++ [])
        (ofScript dialect d script).cursor.ahead := ⟨rfl, rfl⟩
    exact ⟨rfl, classified_none _, Or.inl rfl, typed_none _, .between here .start .nil⟩
  | step _ step ih => exact step_tallied step ih
  | @found s t draft found statement _ pass ih =>
    have accounts := found_accounts pass ih
    obtain ⟨n, rfl⟩ := restored_of_found pass
    exact ⟨ih.same, classified_none _, Or.inl rfl, typed_none _, accounts⟩

/-- The end of a script that is split is met in a state of its run. -/
theorem visits_finished {later : List Statement} (here : Visits dialect d script s none found)
    (live : s.exhausted = false) (h : s.remaining.2 = .ok later) :
    ∃ u t, Visits dialect d script u none (found ++ later) ∧ u.pass none = .finished t := by
  induction later generalizing s found with
  | nil =>
    rcases remaining_ok_cases live h with ⟨-, t, finished⟩ | ⟨t, _, _, same, -⟩
    · obtain ⟨u, f, passes, pass⟩ := passes_of_finished finished
      obtain ⟨rfl, -⟩ := pass_finished pass
      rw [List.append_nil]
      exact ⟨u, t, visits_passes here passes, pass⟩
    · cases same
  | cons statement later ih =>
    rcases remaining_ok_cases live h with ⟨none, -⟩ | ⟨t, _, _, same, next, rest⟩
    · cases none
    · cases same
      obtain ⟨u, f, passes, pass⟩ := passes_of_found next
      have live' : t.exhausted = false := (same_of_found next).2.trans live
      have more := ih (.found (visits_passes here passes) pass) live' rest
      rwa [List.append_assoc] at more

/-- What a directive gives up, where a run has come to it: the text after the last statement or
directive and the fillers behind that. -/
def GivesUp (dialect : Dialect) (d : Delimiter) (script : String) (s : Session)
    (found : List Statement) (x : Delimiter) (dropped : List Char) : Prop :=
  ∃ passed gap line after active,
    s.Between script (passed ++ gap ++ dropped) (line ++ after) ∧
    Accounted dialect d passed (gap ++ dropped ++ line ++ after) active found ∧
    Fillers dialect active passed gap (dropped ++ line ++ after) ∧
    WithoutWords dialect (passed ++ gap) dropped (line ++ after) ∧
    (∀ c ∈ dropped.head?, isBlank c = false) ∧ IsDirective x line ∧ LineEnds after

theorem givesUp_of_visits {x : Delimiter} (h : Visits dialect d script s draft found)
    (set : s.setting? draft = some x) :
    ∃ dropped, s.GivesUp dialect d script found x dropped ∧ (draft = none ↔ dropped = []) := by
  have tallied := visits_tallied h
  obtain ⟨t, directs, step⟩ := directs_of_setting? set
  obtain ⟨line, split, -, directive, ends⟩ := directs.split
  cases tallied.accounts with
  | @between passed gap here done fillers =>
    rw [split] at here done fillers
    refine ⟨[], ⟨passed, gap, line, t.cursor.ahead, s.scriptDelimiter, ?_, ?_, ?_, .nil, ?_,
      directive, ends⟩, iff_of_true rfl rfl⟩
    · rw [List.append_nil]
      exact here
    · rw [List.append_nil, List.append_assoc]
      exact done
    · exact fillers
    · rintro c ⟨⟩
  | @within passed gap text y here start done fillers solid moved wordless =>
    have nonempty : text ≠ [] := by
      rcases moved with moved | stuck
      · exact moved
      · have same := (pass_of_stuck stuck tallied.classified).symm.trans (pass_of_step step)
        cases same
    have wordless := wordless (directs.fresh y rfl)
    rw [split] at here done fillers wordless
    rw [← List.append_assoc] at done fillers
    refine ⟨text, ⟨passed, gap, line, t.cursor.ahead, s.scriptDelimiter, here, done, fillers,
      wordless, ?_, directive, ends⟩, iff_of_false (Option.some_ne_none y) nonempty⟩
    obtain ⟨c, rest, head, nonblank⟩ := solid
    intro x mem
    obtain ⟨more, rfl⟩ := List.head?_eq_some_iff.mp mem
    exact (List.cons.inj head).1 ▸ nonblank

end Session

open Session

/-- Every directive gives up a text without words, which is empty exactly where no statement is
pending, and apart from these texts every character of a script that is split is that of a
statement, a filler, a delimiter or a directive. -/
theorem directives_accounted (dialect : Dialect) (d : Delimiter) (script : String) :
    (∀ s draft found x, Visits dialect d script s draft found → s.setting? draft = some x →
      ∃ dropped, s.GivesUp dialect d script found x dropped ∧ (draft = none ↔ dropped = [])) ∧
    ∀ statements, splitFrom dialect d script = .ok statements →
      ∃ passed gap active, script.toList = passed ++ gap ∧
        Accounted dialect d passed gap active statements ∧
        Fillers dialect active passed gap [] := by
  constructor
  · intro s draft found x visits set
    exact givesUp_of_visits visits set
  · intro statements split
    obtain ⟨u, t, visits, pass⟩ := visits_finished .start rfl split
    obtain ⟨-, ended, -, -⟩ := pass_finished pass
    cases (visits_tallied visits).accounts with
    | @between passed gap here done fillers =>
      rw [ended] at here done fillers
      rw [List.append_nil] at done
      exact ⟨passed, gap, u.scriptDelimiter, here.whole.trans (List.append_nil _), done, fillers⟩

/-- A literal on the line of a directive is given up for it, and the next statement is found with
all that is before it accounted for. -/
theorem directives_accounted_literal :
    (∃ s x found, Visits .mysql .semicolon "'a' DELIMITER ;\nSELECT 1;\n" s (some x) found ∧
      s.setting? (some x) = some .semicolon ∧ ∃ dropped, dropped ≠ [] ∧
        s.GivesUp .mysql .semicolon "'a' DELIMITER ;\nSELECT 1;\n" found .semicolon dropped) ∧
      ∃ passed gap active, "'a' DELIMITER ;\nSELECT 1;\n".toList = passed ++ gap ∧
        Accounted .mysql .semicolon passed gap active [⟨2, 16, 24, "SELECT 1", .semicolon⟩] ∧
        Fillers .mysql active passed gap [] := by
  let script := "'a' DELIMITER ;\nSELECT 1;\n"
  let s := Session.ofScript .mysql .semicolon script
  let t := (Session.follow 1 s none []).1
  let u := (Session.follow 2 s none []).1
  let x := Draft.afterText (.begin s.cursor)
  have literal : s.pass none = .more t (some x) := by decide +kernel
  have blank : t.pass (some x) = .more u (some x) := by decide +kernel
  have set : u.setting? (some x) = some .semicolon := by decide +kernel
  have visits : Visits .mysql .semicolon script u (some x) [] :=
    .step (.step .start (step_of_pass literal)) (step_of_pass blank)
  obtain ⟨gives, accounts⟩ := directives_accounted .mysql .semicolon script
  obtain ⟨dropped, up, pending⟩ := gives u (some x) [] .semicolon visits set
  refine ⟨⟨u, x, [], visits, set, dropped, ?_, up⟩, accounts _ (by decide +kernel)⟩
  intro empty
  exact Option.some_ne_none x (pending.mpr empty)

/-- The literal belongs to no statement of the script, and no fault tells of it. -/
theorem splitFrom_literal_directive :
    splitFrom .mysql .semicolon "'a' DELIMITER ;\nSELECT 1;\n" =
      .ok [⟨2, 16, 24, "SELECT 1", .semicolon⟩] := by
  decide +kernel

end SqlBoundary
