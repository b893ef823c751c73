import SqlBoundary.Proofs.Reading

/-!
# Reading later in a script

A session that goes on after an earlier part of the script does what a session does that has
only the rest before it. Places are counted on, warnings are added to the earlier ones, and
two things may be left over that are never looked at: the word that opened the block closed
last, and the kind of the statements before.
-/

namespace SqlBoundary

open Text

/-- The fault as it is reported if the text `before` comes before the script. -/
def Fault.shift (before : List Char) : Fault → Fault
  | .blockUnderflow => .blockUnderflow
  | .invalidArgument reason => .invalidArgument reason
  | .emptyDirective line => .emptyDirective line
  | .unterminated construct line => .unterminated construct (line + before.count '\n')
  | .unclosedBlock initiator line => .unclosedBlock initiator (line + before.count '\n')
  | .atLine line cause => .atLine (line + before.count '\n') (cause.shift before)
  | .missingFile => .missingFile
  | .invalidUtf8 => .invalidUtf8
  | .malformedSettings => .malformedSettings
  | .stalled line => .stalled (line + before.count '\n')

def Warning.shift (before : List Char) (w : Warning) : Warning :=
  { w with line := w.line + before.count '\n' }

def Statement.shift (before : List Char) (statement : Statement) : Statement :=
  { statement with
    line := statement.line + before.count '\n'
    start := statement.start + byteSize before
    stop := statement.stop + byteSize before }

def Cursor.shift (before : List Char) (cur : Cursor) : Cursor where
  ahead := cur.ahead
  index := cur.index + before.length
  offset := cur.offset + byteSize before
  line := cur.line + before.count '\n'
  content := cur.content

def Draft.shift (before : List Char) (d : Draft) : Draft :=
  { d with start := d.start.shift before }

/-- A result, or the fault in its place. -/
def shiftResult {α β : Type} (before : List Char) (f : α → β) : Except Fault α → Except Fault β
  | .ok x => .ok (f x)
  | .error fault => .error (fault.shift before)

/-- The context with what is left over of an earlier one. -/
def Context.behind (ctx past : Context) : Context :=
  { ctx with
    lastClosed := ctx.lastClosed.or past.lastClosed
    kind := if ctx.kind = .unknown then past.kind else ctx.kind }

/-- The session if the text `before` has been read before it and has left `past`. -/
def Session.behind (s past : Session) (before : List Char) : Session where
  dialect := s.dialect
  cursor := s.cursor.shift before
  context := s.context.behind past.context
  scriptDelimiter := s.scriptDelimiter
  warnings := past.warnings ++ s.warnings.map (·.shift before)
  exhausted := s.exhausted

def Pass.behind (past : Session) (before : List Char) : Pass → Pass
  | .more s draft => .more (s.behind past before) (draft.map (·.shift before))
  | .found s statement => .found (s.behind past before) (statement.shift before)
  | .finished s => .finished (s.behind past before)
  | .failed s fault => .failed (s.behind past before) (fault.shift before)

variable (past : Session) (before : List Char)

namespace Cursor

theorem advance_shift (cur : Cursor) : (cur.shift before).advance = cur.advance.shift before := by
  cases ahead : cur.ahead with
  | nil => simp [advance, shift, ahead]
  | cons c rest =>
    by_cases feed : c = '\n'
    · simp [advance, shift, ahead, feed, Nat.add_right_comm]
    · simp [advance, shift, ahead, feed, Nat.add_right_comm]

theorem skip_shift (n : Nat) (cur : Cursor) :
    (cur.shift before).skip n = (cur.skip n).shift before := by
  induction n generalizing cur with
  | zero => rfl
  | succ n ih => rw [skip, skip, advance_shift, ih]

theorem upTo_shift (start stop : Cursor) :
    (start.shift before).upTo (stop.shift before) = start.upTo stop := by
  simp only [upTo, shift, Nat.add_sub_add_right]

end Cursor

namespace Context

variable {ctx : Context} (past : Context)

/-- Words are told by the kind of the statement and the delimiter alone. -/
theorem wordAhead_behind (known : ctx.kind ≠ .unknown) (cs : List Char) :
    (ctx.behind past).wordAhead cs = ctx.wordAhead cs := by
  induction cs with
  | nil => rfl
  | cons c cs ih =>
    rw [wordAhead, wordAhead, ih]
    simp [isWordChar, isLetter, behind, known]

theorem startsWord_behind (known : ctx.kind ≠ .unknown) :
    (ctx.behind past).startsWord = ctx.startsWord := by
  funext c
  simp [startsWord, isLetter, behind, known]

theorem tokenAhead?_behind (known : ctx.kind ≠ .unknown) (cs : List Char) :
    (ctx.behind past).tokenAhead? cs = ctx.tokenAhead? cs := by
  have word : (ctx.behind past).isWordChar = ctx.isWordChar := by
    funext c
    simp [isWordChar, isLetter, behind, known]
  simp only [tokenAhead?, startsWord_behind past known, word]

theorem leave_behind (grammar : BlockGrammar) (initiator : String) (outer : List String) :
    (ctx.behind past).leave grammar initiator outer =
      (ctx.leave grammar initiator outer).behind past := by
  have same : grammar.closesEnclosing initiator { ctx.behind past with blocks := outer } =
      grammar.closesEnclosing initiator { ctx with blocks := outer } := by
    cases grammar <;> rfl
  rw [leave, leave, same]
  split <;> rfl

theorem opens_behind (grammar : BlockGrammar) (w : Word) :
    grammar.opens w (ctx.behind past) = grammar.opens w ctx := by
  cases grammar <;> rfl

end Context

namespace Session

variable {s t u : Session} {draft e : Option Draft} {d : Draft}

theorem skip_behind (n : Nat) :
    (s.behind past before).skip n = (s.skip n).behind past before := by
  simp only [skip, behind, Cursor.skip_shift]

theorem countParen_behind (c : Char) :
    (s.behind past before).countParen c = (s.countParen c).behind past before := by
  rw [countParen_eq, countParen_eq]
  rfl

theorem classify_behind (text : String) :
    (s.behind past before).classify (d.shift before) text =
      (s.classify d text).behind past before := by
  rw [classify_eq, classify_eq]
  rfl

theorem openBlock_behind (text : String) (next : Option String) :
    (s.behind past before).openBlock (d.shift before) text next =
      (s.openBlock d text next).behind past before := by
  have same : (s.behind past before).dialect.blocks.opens
      ((s.behind past before).asWord (d.shift before) text next) (s.behind past before).context =
      s.dialect.blocks.opens (s.asWord d text next) s.context :=
    Context.opens_behind past.context s.dialect.blocks (s.asWord d text next)
  rw [openBlock_eq, openBlock_eq, same]
  rfl

theorem mismatch?_behind (closed : String) (next : Option String) :
    (s.behind past before).mismatch? closed next =
      (s.mismatch? closed next).map (·.shift before) := by
  cases next with
  | none => rfl
  | some named =>
    simp only [mismatch?]
    split <;> rfl

theorem closeBlock_behind (next : Option String) :
    (s.behind past before).closeBlock (d.shift before) next =
      shiftResult before (·.behind past before) (s.closeBlock d next) := by
  cases blocks : s.context.blocks with
  | nil =>
    rw [closeBlock_nil blocks, closeBlock_nil (s := s.behind past before) blocks]
    cases alone : d.leading.isEmpty && s.dialect.standaloneEnd with
    | true => simp [Draft.shift, behind, alone, shiftResult]
    | false => simp [Draft.shift, behind, alone, shiftResult, Fault.shift]
  | cons initiator outer =>
    rw [closeBlock_cons blocks, closeBlock_cons (s := s.behind past before) blocks,
      mismatch?_behind]
    have context : (s.context.behind past.context).leave s.dialect.blocks initiator outer =
        (s.context.leave s.dialect.blocks initiator outer).behind past.context :=
      Context.leave_behind past.context s.dialect.blocks initiator outer
    simp only [shiftResult, behind, context, List.map_append, List.append_assoc,
      Option.toList_map]

theorem takeWord_behind (known : s.context.kind ≠ .unknown) (text : String) :
    (s.behind past before).takeWord (d.shift before) text =
      (s.takeWord d text).behind past before := by
  have next : (s.behind past before).context.tokenAhead? (s.behind past before).cursor.ahead =
      s.context.tokenAhead? s.cursor.ahead :=
    Context.tokenAhead?_behind past.context known s.cursor.ahead
  rw [takeWord, takeWord, next, closeBlock_behind, openBlock_behind]
  split
  · cases s.closeBlock d (s.context.tokenAhead? s.cursor.ahead) with
    | error fault => rfl
    | ok v =>
      simp only [shiftResult, classify_behind]
      rfl
  · rw [classify_behind]
    rfl

theorem word_behind (known : s.context.kind ≠ .unknown) :
    (s.behind past before).word = s.word :=
  Context.wordAhead_behind past.context known s.cursor.ahead

theorem directive?_eq_error {fault : Fault} (h : s.directive? = .error fault) :
    ∃ text, fault = .emptyDirective text := by
  rw [directive?, Delimiter.ofDirective?] at h
  dsimp only at h
  split at h
  · split at h
    · cases h
      exact ⟨_, rfl⟩
    · cases h
  · cases h

theorem readWord_behind (known : s.context.kind ≠ .unknown) :
    (s.behind past before).readWord (d.shift before) =
      (s.readWord d).behind past before := by
  have text : (s.behind past before).wordText = s.wordText := by
    rw [wordText, wordText, word_behind past before known]
  have moved : (s.behind past before).afterWord = s.afterWord.behind past before := by
    rw [afterWord, afterWord, word_behind past before known, skip_behind]
  have may : (s.behind past before).mayDirect (d.shift before) = s.mayDirect d := by
    rw [mayDirect, mayDirect, text]
    rfl
  have line : (s.behind past before).directive? = s.directive? := rfl
  have direct : ∀ x, (s.behind past before).direct x = (s.direct x).behind past before := by
    intro x
    have cursor : (s.afterWord.behind past before).cursor.skipLine =
        s.afterWord.cursor.skipLine.shift before :=
      Cursor.skip_shift before _ s.afterWord.cursor
    simp only [Session.direct, moved, cursor]
    rfl
  have taken : s.afterWord.context.kind ≠ .unknown := known
  rw [readWord_eq, readWord_eq, may, line, moved, text, takeWord_behind past before taken]
  split
  · split
    · next fault failed =>
      obtain ⟨text, rfl⟩ := directive?_eq_error failed
      rfl
    · rw [direct]
      rfl
    · rfl
  · rfl

theorem begin_behind (draft : Option Draft) :
    (s.behind past before).begin (draft.map (·.shift before)) =
      shiftResult before (fun r => (r.1.behind past before, r.2.shift before)) (s.begin draft) := by
  cases draft with
  | some d => rfl
  | none =>
    by_cases unknown : s.dialect.kind = .unknown
    · simp only [begin, Option.map_none, Context.setKind, behind, unknown, if_true]
      rfl
    · simp only [begin, Option.map_none, Context.setKind, behind, Context.behind, unknown, if_false,
        shiftResult]
      rfl

theorem passText_behind (extent : Extent) (draft : Option Draft) :
    (s.behind past before).passText extent (draft.map (·.shift before)) =
      (s.passText extent draft).behind past before := by
  cases extent with
  | closed n =>
    simp only [passText, skip_behind]
    rfl
  | unclosed construct n =>
    simp only [passText, skip_behind]
    rfl

theorem readToken_behind (known : s.context.kind ≠ .unknown) (c : Char) (rest : List Char) :
    (s.behind past before).readToken (d.shift before) c rest =
      (s.readToken d c rest).behind past before := by
  have token : (s.behind past before).dialect.token
      (s.behind past before).context.startsWord c rest =
      s.dialect.token s.context.startsWord c rest := by
    have starts : (s.behind past before).context.startsWord = s.context.startsWord :=
      Context.startsWord_behind past.context known
    rw [starts]
    rfl
  rw [readToken, readToken, token]
  split
  · next extent _ => exact passText_behind past before extent (some d.afterText)
  · exact readWord_behind past before known
  · rw [skip_behind, countParen_behind]
    rfl

theorem gap?_behind (draft : Option Draft) (c : Char) :
    (s.behind past before).gap? (draft.map (·.shift before)) c = s.gap? draft c := by
  rw [gap?, gap?, Option.isNone_map]
  rfl

theorem cut_behind (stop : Cursor) :
    (s.behind past before).cut (d.shift before) (stop.shift before) =
      (s.cut d stop).shift before := by
  have same := Cursor.upTo_shift before d.start stop
  have size : (d.start.shift before).offset + byteSize (trimEnd (d.start.upTo stop)) =
      d.start.offset + byteSize (trimEnd (d.start.upTo stop)) + byteSize before :=
    Nat.add_right_comm _ _ _
  simp only [cut, Draft.shift, same, size, Statement.shift]
  rfl

/-- A delimiter leads to the same, whether it ends a statement or not. -/
theorem passGap_behind (g : Gap) :
    (s.behind past before).passGap (draft.map (·.shift before)) g =
      (s.passGap draft g).behind past before := by
  cases g with
  | blank =>
    simp only [passGap, skip_behind]
    rfl
  | delimiter n =>
    cases draft with
    | none =>
      simp only [passGap, skip_behind, Option.map_none, endStatement_none]
      rfl
    | some d =>
      have cut := cut_behind past before (s := s.skip n) (d := d) s.cursor
      simp only [passGap, skip_behind, Option.map_some, endStatement_some]
      exact congrArg (Pass.found _) cut
  | terminator n =>
    simp only [passGap, skip_behind]
    rfl
  | comment extent => exact passText_behind past before extent draft

/-- What a draft needs to have been begun with: a kind, and words for the blocks it opened. -/
structure Begun (s : Session) (draft : Option Draft) : Prop where
  known : draft.isSome = true → s.context.kind ≠ .unknown
  blocks : s.context.blocks ≠ [] → ∃ d, draft = some d ∧ d.leading ≠ []

theorem finish_behind (h : s.Begun draft) :
    (s.behind past before).finish (draft.map (·.shift before)) =
      (s.finish draft).behind past before := by
  by_cases outside : s.context.blocks = []
  · rw [finish_outside outside, finish_outside (s := s.behind past before) outside]
    cases draft with
    | none => rfl
    | some d => exact congrArg (Pass.found _) (cut_behind past before s.cursor)
  · obtain ⟨d, rfl, -⟩ := h.blocks outside
    rw [finish_inside outside, finish_inside (s := s.behind past before) outside]
    rfl

theorem pass_behind (h : s.Begun draft) :
    (s.behind past before).pass (draft.map (·.shift before)) =
      (s.pass draft).behind past before := by
  cases ahead : s.cursor.ahead with
  | nil =>
    rw [pass_of_end ahead, pass_of_end (s := s.behind past before) ahead]
    exact finish_behind past before h
  | cons c rest =>
    cases found : s.gap? draft c with
    | some g =>
      rw [pass_of_gap ahead found, pass_of_gap (s := s.behind past before) ahead
        ((gap?_behind past before draft c).trans found)]
      exact passGap_behind past before g
    | none =>
      have solid := (gap?_behind past before (s := s) draft c).trans found
      have begins := begin_behind past before (s := s) draft
      cases begun : s.begin draft with
      | error fault =>
        rw [begun] at begins
        rw [pass_of_begin_error ahead found begun,
          pass_of_begin_error (s := s.behind past before) ahead solid begins]
        rfl
      | ok pair =>
        obtain ⟨u, d⟩ := pair
        rw [begun] at begins
        have known : u.context.kind ≠ .unknown := by
          rcases begin_eq_ok_iff.mp begun with ⟨rfl, rfl⟩ | ⟨-, known, -, rfl⟩
          · exact h.known rfl
          · exact known
        rw [pass_of_begin ahead found begun, pass_of_begin (s := s.behind past before) ahead
          solid begins]
        exact readToken_behind past before known c rest

theorem begun_begin (h : s.Begun draft) (begun : s.begin draft = .ok (u, d)) :
    u.context.kind ≠ .unknown ∧ (u.context.blocks ≠ [] → d.leading ≠ []) := by
  rcases begin_eq_ok_iff.mp begun with ⟨rfl, rfl⟩ | ⟨rfl, known, rfl, rfl⟩
  · refine ⟨h.known rfl, ?_⟩
    intro open_
    obtain ⟨x, same, words⟩ := h.blocks open_
    cases same
    exact words
  · refine ⟨known, ?_⟩
    intro open_
    obtain ⟨x, none, -⟩ := h.blocks open_
    cases none

theorem begun_of_token {d' : Draft} (known : t.context.kind ≠ .unknown)
    (blocks : t.context.blocks ≠ [] → d'.leading ≠ []) : t.Begun (some d') where
  known := fun _ => known
  blocks := fun open_ => ⟨d', rfl, blocks open_⟩

theorem step_begun (h : Step s draft t e) (hb : s.Begun draft) : t.Begun e := by
  cases h with
  | gap => exact ⟨hb.known, hb.blocks⟩
  | delimiter =>
    constructor
    · rintro ⟨⟩
    · exact hb.blocks
  | text _ _ begun =>
    obtain ⟨known, blocks⟩ := begun_begin hb begun
    exact begun_of_token known blocks
  | symbol _ _ begun =>
    obtain ⟨known, blocks⟩ := begun_begin hb begun
    rw [countParen_eq]
    exact begun_of_token known blocks
  | directive _ _ begun _ may =>
    obtain ⟨-, blocks⟩ := begun_begin hb begun
    constructor
    · rintro ⟨⟩
    · intro open_
      exact absurd (mayDirect_iff.mp may).1 (blocks open_)
  | word _ _ begun _ _ taken =>
    obtain ⟨known, -⟩ := begun_begin hb begun
    obtain ⟨rfl, blocks, lastClosed, warnings, rfl⟩ := takeWord_more taken
    rw [classify_eq]
    exact begun_of_token known (fun _ => leading_afterWord _ _)

/-- Between statements it is enough that no block is open. -/
theorem begun_none (closed : s.context.blocks = []) : s.Begun none where
  known := by rintro ⟨⟩
  blocks := fun open_ => absurd closed open_

theorem answer?_behind (pass : Pass) :
    (pass.behind past before).answer? = pass.answer?.map fun r =>
      (r.1.behind past before, shiftResult before (Option.map (·.shift before)) r.2) := by
  cases pass <;> rfl

theorem run_behind (bound : List Char) (h : s.Begun draft) :
    run bound (s.behind past before) (draft.map (·.shift before)) =
      ((run bound s draft).1.behind past before,
        shiftResult before (Option.map (·.shift before)) (run bound s draft).2) := by
  have pass := pass_behind past before h
  induction bound generalizing s draft with
  | nil =>
    rw [run, run, pass]
    cases s.pass draft <;> rfl
  | cons x bound ih =>
    cases answer : (s.pass draft).answer? with
    | some r =>
      rw [run_of_answer answer]
      exact run_of_answer (by rw [pass, answer?_behind, answer]; rfl)
    | none =>
      obtain ⟨t, e, hp⟩ := Pass.more_of_answer? answer
      have later := step_begun (step_of_pass hp) h
      rw [hp] at pass
      rw [run_of_more x hp, run_of_more x pass]
      exact ih later (pass_behind past before later)

/-- Behind an earlier part, the next statement is the same one at a later place. -/
theorem next_behind (closed : s.context.blocks = []) :
    (s.behind past before).next =
      (s.next.1.behind past before,
        shiftResult before (Option.map (·.shift before)) s.next.2) :=
  run_behind past before s.cursor.ahead (begun_none closed)

theorem iterate_behind (closed : s.context.blocks = []) :
    (s.behind past before).iterate =
      (s.iterate.1.behind past before,
        shiftResult before (Option.map (·.shift before)) s.iterate.2) := by
  cases spent : s.exhausted with
  | true => simp [iterate, behind, spent, shiftResult]
  | false =>
    have next := next_behind past before closed
    have live : (s.behind past before).exhausted = false := spent
    rw [iterate, iterate, spent, live, next]
    rcases s.next with ⟨t, fault | _ | statement⟩ <;> rfl

/-- No block is open after a statement. -/
theorem closed_of_found {statement : Statement} (h : s.next = (t, .ok (some statement))) :
    t.context.blocks = [] := by
  obtain ⟨u, f, -, found⟩ := passes_of_found h
  have closed := outside_of_found found
  obtain ⟨n, rfl⟩ := restored_of_found found
  exact closed

theorem gather_behind (bound : List Char) (found : List Statement)
    (closed : s.context.blocks = []) :
    gather bound (found.map (·.shift before)) (s.behind past before) =
      ((gather bound found s).1.behind past before,
        shiftResult before (List.map (·.shift before)) (gather bound found s).2) := by
  induction bound generalizing s found with
  | nil =>
    have iterates := iterate_behind past before closed
    rw [gather, gather, iterates]
    rcases s.iterate with ⟨t, fault | _ | statement⟩
    · rfl
    · simp only [shiftResult, Option.map_none, List.map_reverse]
    · rfl
  | cons x bound ih =>
    have iterates := iterate_behind past before closed
    rcases h : s.iterate with ⟨t, fault | _ | statement⟩
    · rw [h] at iterates
      rw [gather_error h, gather_error iterates]
      rfl
    · rw [h] at iterates
      rw [gather_none h, gather_none iterates]
      simp only [shiftResult, List.map_reverse]
    · rw [h] at iterates
      have later := closed_of_found (found_of_iterate h).2
      rw [gather_some x h, gather_some x iterates]
      exact ih (statement :: found) later

/-- Behind an earlier part, all that is left of a script is read as it is on its own. -/
theorem remaining_behind (closed : s.context.blocks = []) :
    (s.behind past before).remaining =
      (s.remaining.1.behind past before,
        shiftResult before (List.map (·.shift before)) s.remaining.2) :=
  gather_behind past before s.cursor.ahead [] closed

end Session

end SqlBoundary
