import SqlBoundary.Proofs.LetterCase
import SqlBoundary.Proofs.Reachable
import SqlBoundary.Proofs.Segment

/-!
# Splitting a script in other letters

A session that has a script in lower case before it does what the session does that has the
script itself, and gives the same statements in lower case. So two scripts that differ in the
case of their letters alone, inside quoted texts and comments as well, are split alike. An
inline delimiter with letters is found in its own spelling only and has to be left out, and so
have the dialects with dollar tags, which are told apart by case, and with directives, which
may set such a delimiter.
-/

namespace SqlBoundary

open Text

def Cursor.folded (cur : Cursor) : Cursor := { cur with ahead := lower cur.ahead }

def Draft.folded (d : Draft) : Draft := { d with start := d.start.folded }

def Session.folded (s : Session) : Session := { s with cursor := s.cursor.folded }

/-- The statement in lower case, at the same place. -/
def Statement.folded (statement : Statement) : Statement :=
  { statement with sql := String.ofList (lower statement.sql.toList) }

def Pass.folded : Pass → Pass
  | .more s draft => .more s.folded (draft.map Draft.folded)
  | .found s statement => .found s.folded statement.folded
  | .finished s => .finished s.folded
  | .failed s fault => .failed s.folded fault

namespace Cursor

theorem advance_folded (cur : Cursor) : cur.folded.advance = cur.advance.folded := by
  cases ahead : cur.ahead with
  | nil => simp [advance, folded, ahead, lower]
  | cons c rest =>
    simp [advance, folded, ahead, lower, utf8Size_toLower, isBlank_toLower, -beq_iff_eq,
      toLower_beq (m := '\n') (by decide)]

theorem skip_folded (n : Nat) (cur : Cursor) : cur.folded.skip n = (cur.skip n).folded := by
  induction n generalizing cur with
  | zero => rfl
  | succ n ih => rw [skip, skip, advance_folded, ih]

theorem upTo_folded (start stop : Cursor) :
    start.folded.upTo stop.folded = lower (start.upTo stop) :=
  List.map_take.symm

theorem atLineOf_folded (cur : Cursor) (d : Delimiter) :
    cur.folded.atLineOf d = cur.atLineOf d := by
  rw [atLineOf, atLineOf, folded, Delimiter.fillsLine_lower]

end Cursor

/-- A grammar goes by no letter's case in what is ahead. -/
theorem BlockGrammar.opens_lower (grammar : BlockGrammar) (w : Word) (ctx : Context) :
    grammar.opens { w with ahead := lower w.ahead } ctx = grammar.opens w ctx := by
  cases grammar with
  | common => rfl
  | mysql => simp only [opens, opensCommon, opensControlFlow, Lexeme.nextKeyword?_lower]; rfl
  | oracle => simp only [opens, opensCommon, opensUnit, Lexeme.nextKeyword?_lower]; rfl

namespace Session

variable {s t u : Session} {draft e : Option Draft} {d : Draft}

/-- The delimiters of the session and all marks of its dialect are found in either case. -/
structure Caseless (s : Session) : Prop where
  dialect : s.dialect.Caseless
  script : s.scriptDelimiter.Caseless
  active : s.context.delimiter.Caseless

theorem step_caseless (h : Step s draft t e) (caseless : s.Caseless) : t.Caseless := by
  have script := step_scriptDelimiter h caseless.dialect.directives
  constructor
  · rw [step_dialect h]
    exact caseless.dialect
  · rw [script]
    exact caseless.script
  · rcases step_delimiter h with same | same | ⟨-, same⟩
    · rw [same]
      exact caseless.active
    · rw [same]
      exact nofun
    · rw [same, script]
      exact caseless.script

theorem caseless_restored (caseless : s.Caseless) (n : Nat) : (s.skip n).restored.Caseless :=
  ⟨caseless.dialect, caseless.script, caseless.script⟩

theorem skip_folded (s : Session) (n : Nat) : s.folded.skip n = (s.skip n).folded := by
  rw [skip, folded]
  dsimp only
  rw [Cursor.skip_folded]
  rfl

theorem delimiterLength?_folded (caseless : s.Caseless) :
    s.folded.delimiterLength? = s.delimiterLength? := by
  have starts := caseless.active.startsAt_lower s.cursor.ahead
  have line := lineLength_lower s.cursor.ahead
  have fills := Cursor.atLineOf_folded s.cursor s.context.delimiter
  rw [delimiterLength?, delimiterLength?]
  change (if s.context.blockDepth != 0 then none
    else if s.context.delimiter.aloneOnLine then
      if s.cursor.folded.atLineOf s.context.delimiter then
        some (lineLength (lower s.cursor.ahead)) else none
    else if s.context.parens ≤ 0 && s.context.delimiter.startsAt (lower s.cursor.ahead) then
      some s.context.delimiter.text.toList.length else none) = _
  rw [fills, starts, line]

theorem atTerminator_folded (s : Session) : s.folded.atTerminator = s.atTerminator := by
  rw [atTerminator, atTerminator]
  apply congrArg (Option.any · s.dialect.standaloneTerminator)
  funext d
  exact Cursor.atLineOf_folded s.cursor d

theorem gap?_folded (caseless : s.Caseless) (draft : Option Draft) (c : Char) :
    s.folded.gap? (draft.map Draft.folded) c.toLower = s.gap? draft c := by
  have comment : s.folded.dialect.comment? s.folded.cursor.ahead =
      s.dialect.comment? s.cursor.ahead := Dialect.comment?_lower s.dialect s.cursor.ahead
  have line : lineLength s.folded.cursor.ahead = lineLength s.cursor.ahead :=
    lineLength_lower s.cursor.ahead
  rw [gap?, gap?, isBlank_toLower, delimiterLength?_folded caseless, atTerminator_folded,
    Option.isNone_map, comment, line]

theorem passText_folded (s : Session) (extent : Extent) (draft : Option Draft) :
    s.folded.passText extent (draft.map Draft.folded) = (s.passText extent draft).folded := by
  cases extent with
  | closed n =>
    rw [passText, skip_folded]
    rfl
  | unclosed construct n =>
    rw [passText, skip_folded]
    rfl

theorem cut_folded (s : Session) (d : Draft) (stop : Cursor) :
    s.folded.cut d.folded stop.folded = (s.cut d stop).folded := by
  have sql := Cursor.upTo_folded d.start stop
  simp only [cut, Draft.folded, sql, trimEnd_lower, byteSize_lower, Statement.folded,
    String.toList_ofList]
  rfl

theorem passGap_folded (s : Session) (draft : Option Draft) (g : Gap) :
    s.folded.passGap (draft.map Draft.folded) g = (s.passGap draft g).folded := by
  cases g with
  | blank =>
    rw [passGap, skip_folded]
    rfl
  | delimiter n =>
    cases draft with
    | none =>
      rw [passGap, skip_folded]
      rfl
    | some d =>
      rw [passGap, skip_folded]
      exact congrArg (Pass.found _) (cut_folded (s.skip n) d s.cursor)
  | terminator n =>
    rw [passGap, skip_folded]
    rfl
  | comment extent => exact passText_folded s extent draft

theorem openBlock_folded (s : Session) (d : Draft) (text : String) (next : Option String) :
    s.folded.openBlock d.folded text next = (s.openBlock d text next).folded := by
  have same : s.folded.dialect.blocks.opens (s.folded.asWord d.folded text next)
      s.folded.context = s.dialect.blocks.opens (s.asWord d text next) s.context :=
    BlockGrammar.opens_lower s.dialect.blocks (s.asWord d text next) s.context
  rw [openBlock_eq, openBlock_eq, same]
  rfl

theorem closeBlock_folded (s : Session) (d : Draft) (next : Option String) :
    s.folded.closeBlock d.folded next = (s.closeBlock d next).map folded := by
  cases blocks : s.context.blocks with
  | nil =>
    rw [closeBlock_nil blocks, closeBlock_nil (s := s.folded) blocks]
    change (if d.leading.isEmpty && s.dialect.standaloneEnd then _ else _) = _
    split <;> rfl
  | cons initiator outer =>
    rw [closeBlock_cons blocks, closeBlock_cons (s := s.folded) blocks]
    rfl

theorem takeWord_folded (s : Session) (d : Draft) (text : String) :
    s.folded.takeWord d.folded text = (s.takeWord d text).folded := by
  have next : s.folded.context.tokenAhead? s.folded.cursor.ahead =
      s.context.tokenAhead? s.cursor.ahead :=
    Context.tokenAhead?_lower s.context s.cursor.ahead
  have classified : ∀ t : Session, t.folded.classify d.folded text =
      (t.classify d text).folded := by
    intro t
    rw [classify_eq, classify_eq]
    rfl
  rw [takeWord, takeWord, next, closeBlock_folded, openBlock_folded]
  split
  · cases s.closeBlock d (s.context.tokenAhead? s.cursor.ahead) with
    | error fault => rfl
    | ok t => exact congrArg (Pass.more · _) (classified t)
  · exact congrArg (Pass.more · _) (classified _)

theorem readWord_folded (caseless : s.Caseless) (d : Draft) :
    s.folded.readWord d.folded = (s.readWord d).folded := by
  have word : s.folded.word = lower s.word :=
    Context.wordAhead_lower caseless.active s.cursor.ahead
  have text : s.folded.wordText = s.wordText := by
    rw [wordText, word, upper_lower, wordText]
  have moved : s.folded.afterWord = s.afterWord.folded := by
    rw [afterWord, word, length_lower, skip_folded, afterWord]
  have plain : ∀ t : Session, t.dialect = s.dialect → ∀ x, t.mayDirect x = false := by
    intro t same x
    rw [mayDirect, same, caseless.dialect.directives, Bool.and_false]
  rw [readWord_eq, readWord_eq, plain s.folded rfl, plain s rfl, text, moved, takeWord_folded]
  rfl

theorem readToken_folded (caseless : s.Caseless) (d : Draft) (c : Char) (rest : List Char) :
    s.folded.readToken d.folded c.toLower (lower rest) = (s.readToken d c rest).folded := by
  have token := caseless.dialect.token_lower (Context.startsWord_toLower s.context)
    (fun _ => Context.isAlpha_of_startsWord) c rest
  change s.folded.dialect.token s.folded.context.startsWord c.toLower (lower rest) = _ at token
  rw [readToken, readToken, token]
  split
  · next extent _ => exact passText_folded s extent (some d.afterText)
  · exact readWord_folded caseless d
  · next x found =>
    obtain rfl := token_symbol found
    have parens : (s.folded.skip 1).countParen x = ((s.skip 1).countParen x).folded := by
      rw [skip_folded, countParen_eq, countParen_eq]
      rfl
    have symbol : d.folded.afterSymbol x (lower rest) = (d.afterSymbol x rest).folded := by
      have equals := head?_lower (m := '=') (by decide) rest
      have colon := head?_lower (m := ':') (by decide) rest
      simp only [Draft.afterSymbol, bne, equals, colon]
      rfl
    rw [parens, symbol]
    rfl

theorem begin_folded (s : Session) (draft : Option Draft) :
    s.folded.begin (draft.map Draft.folded) =
      (s.begin draft).map fun r => (r.1.folded, r.2.folded) := by
  cases draft with
  | some d => rfl
  | none =>
    by_cases unknown : s.dialect.kind = .unknown
    · simp only [begin, Option.map_none, Context.setKind, folded, unknown, if_true]
      rfl
    · simp only [begin, Option.map_none, Context.setKind, folded, unknown, if_false]
      rfl

theorem begin_caseless (caseless : s.Caseless) (begun : s.begin draft = .ok (u, d)) :
    u.Caseless := by
  obtain ⟨kind, rfl⟩ := begin_ok begun
  exact ⟨caseless.dialect, caseless.script, caseless.active⟩

theorem finish_folded (s : Session) (draft : Option Draft) :
    s.folded.finish (draft.map Draft.folded) = (s.finish draft).folded := by
  by_cases outside : s.context.blocks = []
  · rw [finish_outside outside, finish_outside (s := s.folded) outside]
    cases draft with
    | none => rfl
    | some d => exact congrArg (Pass.found _) (cut_folded s d s.cursor)
  · rw [finish_inside outside, finish_inside (s := s.folded) outside, Option.map_map]
    rfl

theorem pass_folded (caseless : s.Caseless) (draft : Option Draft) :
    s.folded.pass (draft.map Draft.folded) = (s.pass draft).folded := by
  cases ahead : s.cursor.ahead with
  | nil =>
    have end_ : s.folded.cursor.ahead = [] := congrArg lower ahead
    rw [pass_of_end ahead, pass_of_end end_]
    exact finish_folded s draft
  | cons c rest =>
    have lowered : s.folded.cursor.ahead = c.toLower :: lower rest := congrArg lower ahead
    have same := gap?_folded caseless draft c
    cases found : s.gap? draft c with
    | some g =>
      rw [pass_of_gap ahead found, pass_of_gap lowered (same.trans found)]
      exact passGap_folded s draft g
    | none =>
      have begins := begin_folded s draft
      cases begun : s.begin draft with
      | error fault =>
        rw [begun] at begins
        rw [pass_of_begin_error ahead found begun,
          pass_of_begin_error lowered (same.trans found) begins]
        rfl
      | ok pair =>
        rw [begun] at begins
        rw [pass_of_begin ahead found begun, pass_of_begin lowered (same.trans found) begins]
        exact readToken_folded (begin_caseless caseless begun) pair.2 c rest

theorem run_folded (bound : List Char) (caseless : s.Caseless) (draft : Option Draft) :
    run bound s.folded (draft.map Draft.folded) =
      ((run bound s draft).1.folded, (run bound s draft).2.map (Option.map Statement.folded)) := by
  induction bound generalizing s draft with
  | nil =>
    have pass := pass_folded caseless draft
    rw [run, run, pass]
    cases s.pass draft <;> rfl
  | cons x bound ih =>
    have pass := pass_folded caseless draft
    cases led : s.pass draft with
    | more t e =>
      rw [led] at pass
      rw [run_of_more x led, run_of_more x pass]
      exact ih (step_caseless (step_of_pass led) caseless) e
    | found t statement =>
      rw [run, run, pass, led]
      rfl
    | finished t =>
      rw [run, run, pass, led]
      rfl
    | failed t fault =>
      rw [run, run, pass, led]
      rfl

theorem next_folded (caseless : s.Caseless) :
    s.folded.next = (s.next.1.folded, s.next.2.map (Option.map Statement.folded)) := by
  have same := run_bound (lower s.cursor.ahead) s.cursor.ahead (classified_none s.folded)
    (Nat.le_of_eq rfl) (Nat.le_of_eq (length_lower s.cursor.ahead))
  exact same.trans (run_folded s.cursor.ahead caseless none)

theorem iterate_folded (caseless : s.Caseless) :
    s.folded.iterate = (s.iterate.1.folded, s.iterate.2.map (Option.map Statement.folded)) := by
  cases spent : s.exhausted with
  | true => simp [iterate, folded, spent, Except.map]
  | false =>
    have next := next_folded caseless
    have live : s.folded.exhausted = false := spent
    rw [iterate, iterate, spent, live, next]
    rcases s.next with ⟨t, fault | _ | statement⟩ <;> rfl

theorem caseless_of_found {statement : Statement} (caseless : s.Caseless)
    (h : s.next = (t, .ok (some statement))) : t.Caseless := by
  obtain ⟨u, f, passes, found⟩ := passes_of_found h
  have later : u.Caseless := passes_keep (fun _ _ _ _ => step_caseless) passes caseless
  obtain ⟨n, rfl⟩ := restored_of_found found
  exact caseless_restored later n

theorem gather_folded (bound : List Char) (found : List Statement) (caseless : s.Caseless) :
    gather bound (found.map Statement.folded) s.folded =
      ((gather bound found s).1.folded,
        (gather bound found s).2.map (List.map Statement.folded)) := by
  induction bound generalizing s found with
  | nil =>
    have iterates := iterate_folded caseless
    rw [gather, gather, iterates]
    rcases s.iterate with ⟨t, fault | _ | statement⟩
    · rfl
    · simp only [Except.map, Option.map_none, List.map_reverse]
    · rfl
  | cons x bound ih =>
    have iterates := iterate_folded caseless
    rcases h : s.iterate with ⟨t, fault | _ | statement⟩
    · rw [h] at iterates
      rw [gather_error h, gather_error iterates]
      rfl
    · rw [h] at iterates
      rw [gather_none h, gather_none iterates]
      simp only [Except.map, List.map_reverse]
    · rw [h] at iterates
      have later := caseless_of_found caseless (found_of_iterate h).2
      rw [gather_some x h, gather_some x iterates]
      exact ih (statement :: found) later

theorem remaining_folded (caseless : s.Caseless) :
    s.folded.remaining =
      (s.remaining.1.folded, s.remaining.2.map (List.map Statement.folded)) := by
  have same := gather_bound (s := s.folded) (lower s.cursor.ahead) s.cursor.ahead
    (Nat.le_of_eq rfl) (Nat.le_of_eq (length_lower s.cursor.ahead))
  exact same.trans (gather_folded s.cursor.ahead [] caseless)

end Session

/-- A script in lower case is split as the script is. -/
theorem remaining_lower {dialect : Dialect} {d : Delimiter} (dialectal : dialect.Caseless)
    (caseless : d.Caseless) (script : String) :
    (Session.ofScript dialect d (String.ofList (lower script.toList))).remaining =
      ((Session.final dialect d script).folded,
        (splitFrom dialect d script).map (List.map Statement.folded)) := by
  have start : Session.ofScript dialect d (String.ofList (lower script.toList)) =
      (Session.ofScript dialect d script).folded := by
    simp only [Session.ofScript, Session.folded, Cursor.start, Cursor.folded, String.toList_ofList]
  rw [start]
  exact Session.remaining_folded ⟨dialectal, caseless, caseless⟩

/-- Two scripts that differ in the case of letters alone have their statements at the same
places, under the same delimiters, and the same words in them; or the same fault. The same
warnings arise. -/
theorem splitFrom_sameIgnoringCase (v : Vendor)
    (vendor : v = .generic ∨ v = .oracle ∨ v = .sqlserver) (d : Delimiter)
    (caseless : d.Caseless) (script script' : String)
    (same : sameIgnoringCase script.toList script'.toList = true) :
    (splitFrom v.dialect d script).map (List.map Statement.folded) =
      (splitFrom v.dialect d script').map (List.map Statement.folded) ∧
    (Session.final v.dialect d script).warnings = (Session.final v.dialect d script').warnings := by
  have dialectal := Vendor.caseless vendor
  have first := remaining_lower dialectal caseless script
  have second := remaining_lower dialectal caseless script'
  have lowered : lower script.toList = lower script'.toList := eq_of_beq same
  rw [lowered, second] at first
  obtain ⟨sessions, results⟩ := Prod.mk.inj first
  constructor
  · exact results.symm
  · have folded : (Session.final v.dialect d script).folded =
        (Session.final v.dialect d script').folded := sessions.symm
    exact congrArg (fun t => t.warnings) folded

/-- Keywords and a delimiter that stands alone are found in either case. -/
theorem splitFrom_sameIgnoringCase_go :
    let script := "begin SELECT 'a' end\nGO\nselect 2\ngo\n"
    let script' := "BEGIN select 'A' End\ngo\nSELECT 2\nGo\n"
    sameIgnoringCase script.toList script'.toList = true ∧
    splitFrom .sqlserver .go script =
      .ok [⟨1, 0, 20, "begin SELECT 'a' end", .go⟩, ⟨3, 24, 32, "select 2", .go⟩] ∧
    (splitFrom .sqlserver .go script).map (List.map Statement.folded) =
      (splitFrom .sqlserver .go script').map (List.map Statement.folded) ∧
    (Session.final .sqlserver .go script).warnings =
      (Session.final .sqlserver .go script').warnings := by
  intro script script'
  have same : sameIgnoringCase script.toList script'.toList = true := by decide +kernel
  refine ⟨same, by decide +kernel, ?_⟩
  exact splitFrom_sameIgnoringCase .sqlserver (Or.inr (Or.inr rfl)) .go nofun script script' same

end SqlBoundary
