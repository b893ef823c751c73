import SqlBoundary.Proofs.Constructs
import SqlBoundary.Proofs.DirectiveLine
import SqlBoundary.Proofs.EndTail
import SqlBoundary.Proofs.Shift
import SqlBoundary.Proofs.Visits

/-!
# Where faults are met

A fault gives a line, and each kind of fault gives that of something else: where a construct is
opened that nothing closes, where an `END` stands outside blocks, where the last statement
begins, or where a directive has no delimiter. The place itself is found among the states of the
run, and what is true there is said of the script alone.
-/

namespace SqlBoundary

open Text Lexeme

/-- The line of what comes after this part of a script. -/
def lineAfter (before : List Char) : Nat := 1 + before.count '\n'

namespace Session

variable {s t u : Session} {draft e f : Option Draft} {x : Draft} {found : List Statement}
variable {dialect : Dialect} {d : Delimiter} {script : String} {fault : Fault}
variable {stack outer : List String} {initiator : String} {c : Char} {rest : List Char}

/-- Steps during which none of the blocks `stack` is closed. -/
inductive Inside (stack : List String) (s : Session) (draft : Option Draft) :
    Session → Option Draft → Prop
  | start (inside : stack <:+ s.context.blocks) : Inside stack s draft s draft
  | step {t u : Session} {e f : Option Draft} (before : Inside stack s draft t e)
      (step : Step t e u f) (inside : stack <:+ u.context.blocks) : Inside stack s draft u f

/-- The innermost of these blocks was opened where the run had come to a word, which is its
initiator, and all of them have been open since. -/
def OpenSince (dialect : Dialect) (d : Delimiter) (script : String) (stack : List String)
    (s : Session) (draft : Option Draft) : Prop :=
  ∃ s₀ e₀ found₀ u x t e, Visits dialect d script s₀ e₀ found₀ ∧ s₀.Scans e₀ u x ∧
    Step s₀ e₀ t e ∧ t.context.blocks = u.wordText :: s₀.context.blocks ∧
    stack = u.wordText :: s₀.context.blocks ∧ Inside stack t e s draft

/-- A step closes blocks, or opens one with the word it takes. -/
theorem step_blocks (h : Step s draft t e) : t.context.blocks <:+ s.context.blocks ∨
    ∃ u x, s.Scans draft u x ∧ t.context.blocks = u.wordText :: s.context.blocks := by
  cases h with
  | gap => exact Or.inl List.suffix_rfl
  | delimiter => exact Or.inl List.suffix_rfl
  | text _ _ begun =>
    obtain ⟨kind, rfl⟩ := begin_ok begun
    exact Or.inl List.suffix_rfl
  | symbol _ _ begun =>
    obtain ⟨kind, rfl⟩ := begin_ok begun
    rw [countParen_eq]
    exact Or.inl List.suffix_rfl
  | directive _ _ begun =>
    obtain ⟨kind, rfl⟩ := begin_ok begun
    exact Or.inl List.suffix_rfl
  | @word _ _ c rest u _ x ahead solid begun token _ taken =>
    have item : s.item? draft = some (.word u.wordText) := by
      rw [item?_of_begin ahead solid begun, token]
    have same : u.afterWord.context.blocks = s.context.blocks := by
      obtain ⟨kind, rfl⟩ := begin_ok begun
      rfl
    simp only [takeWord, beq_iff_eq] at taken
    split at taken
    · cases blocks : u.afterWord.context.blocks with
      | nil =>
        rw [closeBlock_nil blocks] at taken
        refine Or.inl ?_
        split at taken
        · next v closed =>
          split at closed
          · cases closed
            cases taken
            rw [classify_eq]
            exact same ▸ List.suffix_rfl
          · cases closed
        · cases taken
      | cons initiator outer =>
        rw [closeBlock_cons blocks] at taken
        cases taken
        refine Or.inl ?_
        rw [classify_eq, ← same, blocks]
        simp only [Context.leave, Context.setDelimiter]
        split
        · exact (List.tail_suffix outer).trans (List.suffix_cons initiator outer)
        · exact List.suffix_cons initiator outer
    · cases taken
      rw [classify_eq, openBlock_eq]
      simp only [Context.setDelimiter]
      split
      · exact Or.inr ⟨u, x, ⟨begun, item⟩, by rw [same]⟩
      · exact Or.inl (same ▸ List.suffix_rfl)

/-- Every block that is open was opened by a word, and has been open since. -/
theorem visits_opened (h : Visits dialect d script s draft found)
    (open_ : initiator :: outer <:+ s.context.blocks) :
    OpenSince dialect d script (initiator :: outer) s draft := by
  induction h with
  | start =>
    have none := List.suffix_nil.mp open_
    cases none
  | @step s t draft e found before step ih =>
    have on : initiator :: outer <:+ s.context.blocks →
        OpenSince dialect d script (initiator :: outer) t e := by
      intro already
      obtain ⟨s₀, e₀, found₀, u, x, v, f, visits, scans, opens, blocks, same, inside⟩ := ih already
      exact ⟨s₀, e₀, found₀, u, x, v, f, visits, scans, opens, blocks, same,
        .step inside step open_⟩
    rcases step_blocks step with fewer | ⟨u, x, scans, opened⟩
    · exact on (open_.trans fewer)
    · rw [opened] at open_
      rcases List.suffix_cons_iff.mp open_ with new | old
      · refine ⟨s, draft, found, u, x, t, e, before, scans, step, opened, new, .start ?_⟩
        rw [opened]
        exact open_
      · exact on old
  | found before pass =>
    have outside := outside_of_found pass
    obtain ⟨n, rfl⟩ := restored_of_found pass
    have none := List.suffix_nil.mp (outside ▸ open_ : initiator :: outer <:+ [])
    cases none

/-- Where no word of a statement has been read, no block is open. -/
theorem visits_begun_blocks (h : Visits dialect d script s draft found) : s.Begun draft := by
  induction h with
  | start => exact begun_none rfl
  | step _ step ih => exact step_begun step ih
  | found _ pass =>
    have outside := outside_of_found pass
    obtain ⟨n, rfl⟩ := restored_of_found pass
    exact begun_none outside

/-- The fault ends the reading here: the pass fails with it, or passes take nothing any more. -/
inductive EndsWith (s : Session) : Option Draft → Fault → Prop
  | failed {draft : Option Draft} {t : Session} {fault : Fault}
      (pass : s.pass draft = .failed t fault) : EndsWith s draft fault
  | stalled {x y : Draft} (stuck : s.Stuck x) (pass : s.pass (some x) = .more s (some y)) :
      EndsWith s (some x) (.stalled s.line)

theorem read_fault (hc : s.Classified draft) (h : s.read draft = (t, .error fault)) :
    ∃ u f, Passes s draft u f ∧ u.EndsWith f fault := by
  obtain ⟨u, f, passes, failed | ⟨x, rfl, stuck, -, rfl⟩⟩ := passes_of_error hc h
  · exact ⟨u, f, passes, .failed failed⟩
  · have there := passes_classified passes hc
    exact ⟨u, some x, passes, .stalled stuck (pass_of_stuck stuck there)⟩

/-- A script that is not split has a fault in one of the states that its run goes through. -/
theorem visits_fault (here : Visits dialect d script s none found) (live : s.exhausted = false)
    (h : s.remaining.2 = .error fault) :
    ∃ u f later, Visits dialect d script u f later ∧ u.EndsWith f fault := by
  induction size : s.cursor.ahead.length using Nat.strong_induction_on generalizing s found with
  | _ length ih =>
    rcases next : s.next with ⟨t, cause | _ | statement⟩
    · rw [remaining_of_error live next] at h
      cases h
      obtain ⟨u, f, passes, ends⟩ := read_fault (classified_none s) next
      exact ⟨u, f, found, visits_passes here passes, ends⟩
    · rw [remaining_of_none live next] at h
      cases h
    · obtain ⟨u, f, passes, pass⟩ := passes_of_found next
      have there := visits_passes here passes
      have live' : t.exhausted = false := (same_of_found next).2.trans live
      rw [remaining_of_found live next] at h
      cases later : t.remaining.2 with
      | ok statements => simp [later, Except.map] at h
      | error cause =>
        simp only [later, Except.map, Except.error.injEq] at h
        subst h
        exact ih t.cursor.ahead.length (size ▸ next_shortens next) (.found there pass) live'
          later rfl

/-- What a fault says of the state `s` in which it is met. -/
inductive FaultAt (dialect : Dialect) (d : Delimiter) (script : String) (s : Session)
    (draft : Option Draft) : Fault → Prop
  | unterminated {before lead ahead : List Char} {construct : Construct} {marks : Marks}
      (here : s.Between script before (lead ++ ahead))
      (starts : Starts dialect lead ahead construct marks)
      (never : ∀ text after, ahead = text ++ after → ¬ marks.Complete text after) :
      FaultAt dialect d script s draft (.unterminated construct (lineAfter (before ++ lead)))
  | underflow {before word after : List Char} (here : s.Between script before (word ++ after))
      (item : s.item? draft = some (.word "END")) (spelled : upper word = "END".toList)
      (outside : s.context.blocks = []) :
      FaultAt dialect d script s draft (.atLine (lineAfter before) .blockUnderflow)
  | unclosed {before ahead : List Char} {outer : List String} {initiator : String} {x y : Draft}
      {s₀ t : Session} {found : List Statement} (ended : s.Between script script.toList [])
      (pending : draft = some x) (idle : Visits dialect d script s₀ none found)
      (here : s₀.Between script before ahead) (begins : Step s₀ none t (some y))
      (passes : Passes t (some y) s (some x)) (start : x.start = s₀.cursor)
      (blocks : s.context.blocks = initiator :: outer)
      (opened : OpenSince dialect d script s.context.blocks s draft) :
      FaultAt dialect d script s draft (.unclosedBlock initiator (lineAfter before))
  | directive {before word blanks after : List Char}
      (here : s.Between script before (word ++ blanks ++ after))
      (item : s.item? draft = some (.word "DELIMITER")) (first : ∀ x ∈ draft, x.leading = [])
      (directives : dialect.delimiterDirective = true)
      (spelled : upper word = "DELIMITER".toList) (blank : ∀ c ∈ blanks, isBlank c = true)
      (oneLine : '\n' ∉ blanks) (ends : LineEnds after) :
      FaultAt dialect d script s draft
        (.atLine (lineAfter before) (.emptyDirective (String.ofList word)))
  | stalled {before ahead : List Char} {x : Draft} (here : s.Between script before ahead)
      (pending : draft = some x) (stuck : s.Stuck x) :
      FaultAt dialect d script s draft (.stalled (lineAfter before))

theorem Between.line {before ahead : List Char} (here : s.Between script before ahead) :
    s.line = lineAfter before := by
  rw [Session.line, here.place, Cursor.between, lineAfter, Nat.add_comm]

theorem lineAfter_append {more : List Char} (before : List Char) (oneLine : '\n' ∉ more) :
    lineAfter (before ++ more) = lineAfter before := by
  rw [lineAfter, lineAfter, List.count_append, List.count_eq_zero.mpr oneLine, Nat.add_zero]

/-- A word has no line feed, so that after it the line is the same. -/
theorem Between.line_afterWord {before ahead : List Char} (here : s.Between script before ahead) :
    s.afterWord.line = lineAfter before := by
  have place : s.cursor = .between before s.cursor.ahead := by
    rw [here.place]
    rfl
  have oneLine := s.context.lineFeed_not_mem_wordAhead s.cursor.ahead
  rw [Session.line, afterWord, skip_cursor, skip_place place, take_word,
    ← lineAfter_append before oneLine]
  exact Nat.add_comm _ _

/-- The word ahead, and what comes after it. -/
theorem word_split (s : Session) : ∃ after, s.cursor.ahead = s.word ++ after ∧
    upper s.word = s.wordText.toList := by
  exact ⟨_, s.ahead_eq_word_append, String.toList_ofList.symm⟩

/-- The lead of a construct is at most one letter. -/
theorem oneLine_of_starts {lead ahead : List Char} {construct : Construct} {marks : Marks}
    (h : Starts dialect lead ahead construct marks) : '\n' ∉ lead := by
  cases h with
  | extended _ letter => rcases letter with rfl | rfl <;> decide
  | comment => exact List.not_mem_nil
  | literal => exact List.not_mem_nil
  | identifier => exact List.not_mem_nil
  | dollar => exact List.not_mem_nil

/-- A directive without a delimiter has nothing but blanks on its line. -/
theorem faultAt_of_directive {before : List Char} (same : s.dialect = dialect)
    (here : s.Between script before (c :: rest)) (solid : isBlank c = false)
    (begun : s.begin draft = .ok (u, x)) (item : s.item? draft = some (.word u.wordText))
    (may : u.mayDirect x = true) (failed : u.directive? = .error fault) :
    FaultAt dialect d script s draft (.atLine u.afterWord.line fault) := by
  have there := here.begin begun
  obtain ⟨rfl, blanks, after, whole, blank, oneLine, ends⟩ :=
    directive_error there.ahead_eq solid may failed
  obtain ⟨-, -, spelled⟩ := word_split u
  obtain ⟨fresh, text, directives⟩ := mayDirect_iff.mp may
  have first := fresh_of_begin begun fresh
  have kept : u.dialect = dialect := (begin_dialect begun).trans same
  rw [there.ahead_eq] at whole
  rw [whole] at here
  rw [text] at item spelled
  rw [there.line_afterWord]
  exact .directive here item first (kept ▸ directives) spelled blank oneLine ends

/-- An `END` that closes nothing is scanned while no block is open. -/
theorem faultAt_of_underflow {before : List Char} (here : s.Between script before (c :: rest))
    (begun : s.begin draft = .ok (u, x)) (item : s.item? draft = some (.word u.wordText))
    (ending : u.wordText = "END") (outside : u.context.blocks = []) :
    FaultAt dialect d script s draft (.atLine u.afterWord.line .blockUnderflow) := by
  have there := here.begin begun
  obtain ⟨after, whole, spelled⟩ := word_split u
  have closed : s.context.blocks = [] := by
    obtain ⟨kind, rfl⟩ := begin_ok begun
    exact outside
  rw [there.ahead_eq] at whole
  rw [whole] at here
  rw [ending] at item spelled
  rw [there.line_afterWord]
  exact .underflow here item spelled closed

/-- At the end of the script the statement that is pending has a block open. -/
theorem faultAt_of_unclosed (visits : Visits dialect d script s draft found)
    (ended : s.cursor.ahead = []) (inside : s.context.blocks ≠ []) :
    FaultAt dialect d script s draft
      (.unclosedBlock s.context.innermost ((draft.map (·.start.line)).getD 0)) := by
  obtain ⟨x, rfl, -⟩ := (visits_begun_blocks visits).blocks inside
  obtain ⟨s₀, t₀, y, earlier, origin, first, rest, start⟩ := visits_begun visits
  obtain ⟨before, here⟩ := visits_between visits
  obtain ⟨before₀, here₀⟩ := visits_between origin
  obtain ⟨initiator, outer, blocks⟩ := List.exists_cons_of_ne_nil inside
  have opened : OpenSince dialect d script s.context.blocks s (some x) := by
    rw [blocks]
    exact visits_opened visits (by rw [blocks])
  have innermost : s.context.innermost = initiator := by
    rw [Context.innermost, blocks]
    rfl
  have line : x.start.line = lineAfter before₀ := by
    rw [start]
    exact here₀.line
  have done : s.Between script script.toList [] := by
    rw [ended] at here
    have whole : script.toList = before := here.whole.trans (List.append_nil before)
    rw [whole]
    exact here
  rw [innermost, Option.map_some, Option.getD_some, line]
  exact .unclosed done rfl origin here₀ first rest start blocks opened

/-- Every fault that ends a pass is what it says. -/
theorem faultAt_of_fails (bare : dialect.Bare) (known : dialect.kind ≠ .unknown)
    (visits : Visits dialect d script s draft found) (h : Fails s draft t fault) :
    FaultAt dialect d script s draft fault := by
  have same := visits_dialect visits
  obtain ⟨before, here⟩ := visits_between visits
  cases h with
  | comment ahead gap =>
    have comment := (comment_of_gap? gap).2
    rw [same] at comment
    obtain ⟨starts, never⟩ := Dialect.unclosed_of_comment comment
    rw [here.line, ← List.append_nil before]
    exact .unterminated here starts never
  | unclassified ahead solid failed =>
    cases draft with
    | some x => cases failed
    | none => simp [Session.begin, Context.setKind, same, known] at failed
  | @text c rest u _ construct n ahead solid begun token =>
    rw [ahead] at here
    have there := here.begin begun
    have kept : u.dialect = dialect := (begin_dialect begun).trans same
    rw [kept] at token
    obtain ⟨lead, more, marks, whole, starts, never⟩ := Dialect.unclosed_of_token bare token
    rw [there.line, ← lineAfter_append before (oneLine_of_starts starts)]
    exact .unterminated (whole ▸ here) starts never
  | directive ahead solid begun token may failed =>
    have item := item?_of_begin ahead solid begun
    rw [token] at item
    rw [ahead] at here
    exact faultAt_of_directive same here (gap?_eq_none_iff.mp solid).1 begun item may failed
  | underflow ahead solid begun token ending outside =>
    have item := item?_of_begin ahead solid begun
    rw [token] at item
    rw [ahead] at here
    exact faultAt_of_underflow here begun item ending outside
  | unclosed ahead inside => exact faultAt_of_unclosed visits ahead inside

end Session

open Session

theorem Vendor.known (v : Vendor) : v.dialect.kind ≠ .unknown := by
  cases v <;> decide

/-- A script that is not split has a fault where the run comes to a state in which reading cannot
go on, and there the fault is what it says. -/
theorem splitFrom_fault (v : Vendor) (d : Delimiter) (script : String) (fault : Fault)
    (h : splitFrom v.dialect d script = .error fault) :
    ∃ s draft found, Visits v.dialect d script s draft found ∧ s.EndsWith draft fault ∧
      FaultAt v.dialect d script s draft fault := by
  obtain ⟨s, draft, found, visits, ends⟩ := visits_fault .start rfl h
  refine ⟨s, draft, found, visits, ends, ?_⟩
  cases ends with
  | failed pass => exact faultAt_of_fails v.bare v.known visits (fails_of_pass pass)
  | stalled stuck =>
    obtain ⟨before, here⟩ := visits_between visits
    rw [here.line]
    exact .stalled here rfl stuck

/-- A literal on the third line in which a mark is doubled and another is escaped, and a block
inside another one, in a statement that begins on the second line. -/
theorem splitFrom_fault_two :
    splitFrom .postgres .semicolon "SELECT 1;\nSELECT\n E'it''s \\'" =
        .error (.unterminated .stringLiteral 3) ∧
      (∃ s draft found, Visits .postgres .semicolon "SELECT 1;\nSELECT\n E'it''s \\'" s draft
          found ∧ s.EndsWith draft (.unterminated .stringLiteral 3) ∧
        FaultAt .postgres .semicolon "SELECT 1;\nSELECT\n E'it''s \\'" s draft
          (.unterminated .stringLiteral 3)) ∧
      splitFrom .generic .semicolon ";\nBEGIN\n SELECT 1;\n case" =
        .error (.unclosedBlock "CASE" 2) ∧
      ∃ s draft found, Visits .generic .semicolon ";\nBEGIN\n SELECT 1;\n case" s draft found ∧
        s.EndsWith draft (.unclosedBlock "CASE" 2) ∧
        FaultAt .generic .semicolon ";\nBEGIN\n SELECT 1;\n case" s draft
          (.unclosedBlock "CASE" 2) := by
  have literal : splitFrom .postgres .semicolon "SELECT 1;\nSELECT\n E'it''s \\'" =
      .error (.unterminated .stringLiteral 3) := by decide +kernel
  have block : splitFrom .generic .semicolon ";\nBEGIN\n SELECT 1;\n case" =
      .error (.unclosedBlock "CASE" 2) := by decide +kernel
  exact ⟨literal, splitFrom_fault .postgres .semicolon _ _ literal, block,
    splitFrom_fault .generic .semicolon _ _ block⟩

end SqlBoundary
