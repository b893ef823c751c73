import SqlBoundary.Proofs.Append
import SqlBoundary.Proofs.Effect

/-!
# What a pass can do

Every pass that leaves the reading open is one of six steps, listed once here with all
that is known at each. Later invariants go through the steps by cases and never unfold the
reading functions again.
-/

namespace SqlBoundary

open Text

/-- The characters of a gap that has no effect besides being passed. -/
def Gap.length? : Gap → Option Nat
  | .blank => some 1
  | .delimiter _ => none
  | .terminator n => some n
  | .comment (.closed n) => some n
  | .comment (.unclosed _ _) => none

namespace Session

variable {s t u : Session} {draft e : Option Draft} {d : Draft}

@[simp] theorem skip_cursor (n : Nat) : (s.skip n).cursor = s.cursor.skip n := rfl

@[simp] theorem skip_context (n : Nat) : (s.skip n).context = s.context := rfl

/-- The word ahead, as it is spelled. -/
def word (s : Session) : List Char := s.context.wordAhead s.cursor.ahead

/-- The word ahead in upper case. -/
def wordText (s : Session) : String := String.ofList (upper s.word)

/-- The session after the word ahead has been passed. -/
def afterWord (s : Session) : Session := s.skip s.word.length

theorem take_word (s : Session) : s.cursor.ahead.take s.word.length = s.word :=
  (List.prefix_iff_eq_take.mp (s.context.wordAhead_prefix s.cursor.ahead)).symm

theorem ahead_eq_word_append (s : Session) :
    s.cursor.ahead = s.word ++ s.afterWord.cursor.ahead := by
  rw [afterWord, skip_cursor, Cursor.skip_ahead]
  conv => rhs; lhs; rw [← take_word]
  exact (List.take_append_drop _ _).symm

/-- Whether the word ahead is to be read as a directive. -/
def mayDirect (s : Session) (draft : Draft) : Bool :=
  draft.leading.isEmpty && s.wordText == "DELIMITER" && s.dialect.delimiterDirective

theorem mayDirect_iff : s.mayDirect d = true ↔
    d.leading = [] ∧ s.wordText = "DELIMITER" ∧ s.dialect.delimiterDirective = true := by
  simp only [mayDirect, Bool.and_eq_true, List.isEmpty_iff, beq_iff_eq, and_assoc]

/-- The session after a directive that sets this delimiter. -/
def direct (s : Session) (delimiter : Delimiter) : Session :=
  { s.afterWord with
    cursor := s.afterWord.cursor.skipLine
    context := s.context.setDelimiter delimiter
    scriptDelimiter := delimiter }

/-- The line ahead read as a directive. -/
def directive? (s : Session) : Except Fault (Option Delimiter) :=
  Delimiter.ofDirective? (currentLine s.cursor.ahead)

theorem readWord_eq (s : Session) (draft : Draft) :
    s.readWord draft =
      if s.mayDirect draft then
        match s.directive? with
        | .error fault => .failed s.afterWord (.atLine s.afterWord.line fault)
        | .ok (some delimiter) => .more (s.direct delimiter) none
        | .ok none => s.afterWord.takeWord draft s.wordText
      else s.afterWord.takeWord draft s.wordText := rfl

/-- The steps of reading. A token belongs to a draft, which begins with it if there is none;
then `u` is the session in which the statement has been given its kind. -/
inductive Step (s : Session) : Option Draft → Session → Option Draft → Prop
  | gap {draft : Option Draft} {c : Char} {rest : List Char} {g : Gap} {n : Nat}
      (ahead : s.cursor.ahead = c :: rest) (found : s.gap? draft c = some g)
      (length : g.length? = some n) :
      Step s draft (s.skip n) draft
  | delimiter {c : Char} {rest : List Char} {n : Nat}
      (ahead : s.cursor.ahead = c :: rest) (found : s.gap? none c = some (.delimiter n)) :
      Step s none ((s.skip n).endStatement none s.cursor).1 none
  | text {draft : Option Draft} {c : Char} {rest : List Char} {u : Session} {d : Draft} {n : Nat}
      (ahead : s.cursor.ahead = c :: rest) (solid : s.gap? draft c = none)
      (begun : s.begin draft = .ok (u, d))
      (token : u.dialect.token u.context.startsWord c rest = .text (.closed n)) :
      Step s draft (u.skip n) (some d.afterText)
  | symbol {draft : Option Draft} {c : Char} {rest : List Char} {u : Session} {d : Draft}
      (ahead : s.cursor.ahead = c :: rest) (solid : s.gap? draft c = none)
      (begun : s.begin draft = .ok (u, d))
      (token : u.dialect.token u.context.startsWord c rest = .symbol c) :
      Step s draft ((u.skip 1).countParen c) (some (d.afterSymbol c rest))
  | directive {draft : Option Draft} {c : Char} {rest : List Char} {u : Session} {d : Draft}
      {delimiter : Delimiter}
      (ahead : s.cursor.ahead = c :: rest) (solid : s.gap? draft c = none)
      (begun : s.begin draft = .ok (u, d))
      (token : u.dialect.token u.context.startsWord c rest = .word)
      (may : u.mayDirect d = true) (line : u.directive? = .ok (some delimiter)) :
      Step s draft (u.direct delimiter) none
  | word {draft e : Option Draft} {c : Char} {rest : List Char} {u t : Session} {d : Draft}
      (ahead : s.cursor.ahead = c :: rest) (solid : s.gap? draft c = none)
      (begun : s.begin draft = .ok (u, d))
      (token : u.dialect.token u.context.startsWord c rest = .word)
      (plain : u.mayDirect d = true → u.directive? = .ok none)
      (taken : u.afterWord.takeWord d u.wordText = .more t e) :
      Step s draft t e

theorem delimiterLength?_eq_some {n : Nat} (h : s.delimiterLength? = some n) :
    s.context.blocks = [] ∧
      (s.context.delimiter.aloneOnLine = true ∧ s.cursor.atLineOf s.context.delimiter = true ∧
          n = lineLength s.cursor.ahead ∨
        s.context.parens ≤ 0 ∧ s.context.delimiter.startsAt s.cursor.ahead = true ∧
          n = s.context.delimiter.text.toList.length) := by
  simp only [delimiterLength?, Context.blockDepth, bne_iff_ne, ne_eq, List.length_eq_zero_iff] at h
  split at h
  · cases h
  · next closed =>
    refine ⟨Decidable.not_not.mp closed, ?_⟩
    split at h
    · next alone =>
      split at h
      · next here => exact Or.inl ⟨alone, here, (Option.some.inj h).symm⟩
      · cases h
    · split at h
      · next here =>
        simp only [Bool.and_eq_true, decide_eq_true_eq] at here
        exact Or.inr ⟨here.1, here.2, (Option.some.inj h).symm⟩
      · cases h

theorem delimiterLength?_semicolon {rest : List Char} (outside : s.context.blocks = [])
    (level : s.context.parens = 0) (delimiter : s.context.delimiter = .semicolon)
    (ahead : s.cursor.ahead = ';' :: rest) : s.delimiterLength? = some 1 := by
  simp [delimiterLength?, Context.blockDepth, outside, level, delimiter, ahead,
    Delimiter.semicolon, Delimiter.inline, Delimiter.startsAt]

theorem gap?_eq_some {c : Char} {g : Gap} (h : s.gap? draft c = some g) :
    (g = .blank ∧ isBlank c = true) ∨
    (∃ n, g = .delimiter n ∧ isBlank c = false ∧ s.delimiterLength? = some n) ∨
    (g = .terminator (lineLength s.cursor.ahead) ∧ isBlank c = false ∧ draft = none ∧
      s.atTerminator = true) ∨
    (∃ extent, g = .comment extent ∧ isBlank c = false ∧
      s.dialect.comment? s.cursor.ahead = some extent) := by
  rw [gap?] at h
  split at h
  · next blank => exact Or.inl ⟨(Option.some.inj h).symm, blank⟩
  · next solid =>
    have solid := Bool.eq_false_iff.mpr solid
    split at h
    · next n here => exact Or.inr (Or.inl ⟨n, (Option.some.inj h).symm, solid, here⟩)
    · split at h
      · next here =>
        rw [Bool.and_eq_true, Option.isNone_iff_eq_none] at here
        exact Or.inr (Or.inr (Or.inl ⟨(Option.some.inj h).symm, solid, here.1, here.2⟩))
      · obtain ⟨extent, found, same⟩ := Option.map_eq_some_iff.mp h
        exact Or.inr (Or.inr (Or.inr ⟨extent, same.symm, solid, found⟩))

theorem blank_of_gap? {c : Char} (h : s.gap? draft c = some .blank) : isBlank c = true := by
  rcases gap?_eq_some h with ⟨-, blank⟩ | ⟨_, same, -⟩ | ⟨same, -⟩ | ⟨_, same, -⟩
  · exact blank
  all_goals cases same

theorem delimiter_of_gap? {c : Char} {n : Nat} (h : s.gap? draft c = some (.delimiter n)) :
    isBlank c = false ∧ s.delimiterLength? = some n := by
  rcases gap?_eq_some h with ⟨same, -⟩ | ⟨_, same, solid, here⟩ | ⟨same, -⟩ | ⟨_, same, -⟩
  · cases same
  · cases same
    exact ⟨solid, here⟩
  all_goals cases same

theorem terminator_of_gap? {c : Char} {n : Nat} (h : s.gap? draft c = some (.terminator n)) :
    isBlank c = false ∧ draft = none ∧ s.atTerminator = true ∧ n = lineLength s.cursor.ahead := by
  rcases gap?_eq_some h with
    ⟨same, -⟩ | ⟨_, same, -⟩ | ⟨same, solid, outside, here⟩ | ⟨_, same, -⟩
  · cases same
  · cases same
  · cases same
    exact ⟨solid, outside, here, rfl⟩
  · cases same

theorem comment_of_gap? {c : Char} {extent : Extent}
    (h : s.gap? draft c = some (.comment extent)) :
    isBlank c = false ∧ s.dialect.comment? s.cursor.ahead = some extent := by
  rcases gap?_eq_some h with ⟨same, -⟩ | ⟨_, same, -⟩ | ⟨same, -⟩ | ⟨_, same, solid, found⟩
  · cases same
  · cases same
  · cases same
  · cases same
    exact ⟨solid, found⟩

theorem gap?_eq_none_iff {c : Char} :
    s.gap? draft c = none ↔ isBlank c = false ∧ s.delimiterLength? = none ∧
      (draft = none → s.atTerminator = false) ∧ s.dialect.comment? s.cursor.ahead = none := by
  rw [gap?]
  cases isBlank c <;> cases s.delimiterLength? <;> cases draft <;> cases s.atTerminator <;>
    simp

/-- A draft that is there is read on with; else one begins at the cursor, and the session
takes the kind of its dialect. -/
theorem begin_eq_ok_iff : s.begin draft = .ok (u, d) ↔
    (draft = some d ∧ u = s) ∨
    (draft = none ∧ s.dialect.kind ≠ .unknown ∧ d = .begin s.cursor ∧
      u = { s with context := { s.context with kind := s.dialect.kind } }) := by
  cases draft with
  | some x => simp [begin, eq_comm, and_comm]
  | none =>
    by_cases unknown : s.dialect.kind = .unknown
    · simp [begin, Context.setKind, unknown]
    · simp [begin, Context.setKind, unknown, eq_comm, and_comm]

theorem begin_ok (h : s.begin draft = .ok (u, d)) :
    ∃ kind, u = { s with context := { s.context with kind } } := by
  rcases begin_eq_ok_iff.mp h with ⟨-, rfl⟩ | ⟨-, -, -, rfl⟩
  · exact ⟨u.context.kind, rfl⟩
  · exact ⟨_, rfl⟩

theorem begin_cursor (begun : s.begin draft = .ok (u, d)) : u.cursor = s.cursor := by
  obtain ⟨kind, rfl⟩ := begin_ok begun
  rfl

theorem begin_dialect (begun : s.begin draft = .ok (u, d)) : u.dialect = s.dialect := by
  obtain ⟨kind, rfl⟩ := begin_ok begun
  rfl

theorem passText_eq_more {extent : Extent} (h : s.passText extent draft = .more t e) :
    ∃ n, extent = .closed n ∧ t = s.skip n ∧ e = draft := by
  cases extent with
  | closed n =>
    cases h
    exact ⟨n, rfl, rfl, rfl⟩
  | unclosed construct n => cases h

theorem token_symbol {dialect : Dialect} {p : Char → Bool} {c x : Char} {rest : List Char}
    (h : dialect.token p c rest = .symbol x) : x = c := by
  rw [Dialect.token] at h
  split at h
  · cases h
  · split at h
    · cases h
    · split at h
      · cases h
      · exact (Token.symbol.inj h).symm

theorem token_word {dialect : Dialect} {p : Char → Bool} {c : Char} {rest : List Char}
    (h : dialect.token p c rest = .word) : p c = true := by
  rw [Dialect.token] at h
  split at h
  · cases h
  · split at h
    · cases h
    · split at h
      · next starts => exact starts
      · cases h

theorem step_of_passGap {c : Char} {rest : List Char} {g : Gap}
    (ahead : s.cursor.ahead = c :: rest) (found : s.gap? draft c = some g)
    (h : s.passGap draft g = .more t e) : Step s draft t e := by
  cases g with
  | blank =>
    cases h
    exact .gap ahead found rfl
  | delimiter n =>
    cases draft with
    | none =>
      cases h
      exact .delimiter ahead found
    | some d => cases h
  | terminator n =>
    cases h
    exact .gap ahead found rfl
  | comment extent =>
    obtain ⟨n, rfl, rfl, rfl⟩ := passText_eq_more h
    exact .gap ahead found rfl

theorem step_of_readToken {c : Char} {rest : List Char}
    (ahead : s.cursor.ahead = c :: rest) (solid : s.gap? draft c = none)
    (begun : s.begin draft = .ok (u, d)) (h : u.readToken d c rest = .more t e) :
    Step s draft t e := by
  rw [readToken] at h
  split at h
  case h_1 extent token =>
    obtain ⟨n, rfl, rfl, rfl⟩ := passText_eq_more h
    exact .text ahead solid begun token
  case h_2 token =>
    rw [readWord_eq] at h
    split at h
    case isTrue may =>
      split at h
      case h_1 => cases h
      case h_2 line =>
        cases h
        exact .directive ahead solid begun token may line
      case h_3 line => exact .word ahead solid begun token (fun _ => line) h
    case isFalse may => exact .word ahead solid begun token (fun yes => absurd yes may) h
  case h_3 x token =>
    obtain rfl := token_symbol token
    cases h
    exact .symbol ahead solid begun token

theorem pass_of_end (ahead : s.cursor.ahead = []) : s.pass draft = s.finish draft := by
  simp only [pass, ahead]

theorem pass_of_gap {c : Char} {rest : List Char} {g : Gap} (ahead : s.cursor.ahead = c :: rest)
    (found : s.gap? draft c = some g) : s.pass draft = s.passGap draft g := by
  simp only [pass, ahead, found]

/-- Before the delimiter the statement is found. -/
theorem pass_of_delimiter {c : Char} {rest : List Char} {n : Nat}
    (ahead : s.cursor.ahead = c :: rest) (solid : isBlank c = false)
    (active : s.delimiterLength? = some n) :
    s.pass (some d) = .found (s.skip n).restored (s.cut d s.cursor) := by
  have here : s.gap? (some d) c = some (.delimiter n) := by
    rw [gap?, solid, active]
    rfl
  rw [pass_of_gap ahead here]
  rfl

theorem pass_of_begin {c : Char} {rest : List Char} (ahead : s.cursor.ahead = c :: rest)
    (solid : s.gap? draft c = none) (begun : s.begin draft = .ok (u, d)) :
    s.pass draft = u.readToken d c rest := by
  simp only [pass, ahead, solid, begun]

theorem pass_of_begin_error {c : Char} {rest : List Char} {fault : Fault}
    (ahead : s.cursor.ahead = c :: rest) (solid : s.gap? draft c = none)
    (failed : s.begin draft = .error fault) : s.pass draft = .failed s fault := by
  simp only [pass, ahead, solid, failed]

theorem finish_inside (inside : s.context.blocks ≠ []) (draft : Option Draft) :
    s.finish draft = .failed s
      (.unclosedBlock s.context.innermost ((draft.map (·.start.line)).getD 0)) := by
  have depth : (s.context.blockDepth != 0) = true := by simp [Context.blockDepth, inside]
  rw [finish, if_pos depth]

theorem finish_outside (outside : s.context.blocks = []) (draft : Option Draft) :
    s.finish draft = match draft with
      | some d => .found s.restored (s.cut d s.cursor)
      | none => .finished s.restored := by
  have depth : ¬ (s.context.blockDepth != 0) = true := by simp [Context.blockDepth, outside]
  rw [finish, if_neg depth]
  cases draft <;> rfl

/-- At the end of the script the reading ends. -/
theorem finish_closed (s : Session) (draft : Option Draft) :
    s.finish draft ≠ .more t e := by
  by_cases outside : s.context.blocks = []
  · rw [finish_outside outside]
    cases draft <;> exact Pass.noConfusion
  · rw [finish_inside outside]
    exact Pass.noConfusion

theorem step_of_pass (h : s.pass draft = .more t e) : Step s draft t e := by
  cases ahead : s.cursor.ahead with
  | nil =>
    rw [pass_of_end ahead] at h
    exact absurd h (finish_closed s draft)
  | cons c rest =>
    cases found : s.gap? draft c with
    | some g =>
      rw [pass_of_gap ahead found] at h
      exact step_of_passGap ahead found h
    | none =>
      cases begun : s.begin draft with
      | error fault =>
        rw [pass_of_begin_error ahead found begun] at h
        cases h
      | ok pair =>
        rw [pass_of_begin ahead found begun] at h
        exact step_of_readToken ahead found begun h

theorem pass_of_step (h : Step s draft t e) : s.pass draft = .more t e := by
  cases h with
  | @gap _ c rest g n ahead found length =>
    rw [pass_of_gap ahead found]
    cases g with
    | blank => cases length; rfl
    | delimiter n => cases length
    | terminator n => cases length; rfl
    | comment extent =>
      cases extent with
      | closed n => cases length; rfl
      | unclosed construct n => cases length
  | delimiter ahead found => exact pass_of_gap ahead found
  | text ahead solid begun token =>
    rw [pass_of_begin ahead solid begun, readToken, token]
    rfl
  | symbol ahead solid begun token => rw [pass_of_begin ahead solid begun, readToken, token]
  | directive ahead solid begun token may line =>
    rw [pass_of_begin ahead solid begun, readToken, token, readWord_eq]
    simp only [may, line, if_true]
  | @word _ _ c rest v _ d ahead solid begun token plain taken =>
    rw [pass_of_begin ahead solid begun, readToken, token, readWord_eq]
    by_cases may : v.mayDirect d = true
    · simpa only [may, plain may, if_true] using taken
    · rw [if_neg may]
      exact taken

/-- A token never ends a statement. -/
theorem readToken_open (s : Session) (d : Draft) (c : Char) (rest : List Char) :
    (∃ t e, s.readToken d c rest = .more t e) ∨
      ∃ t fault, s.readToken d c rest = .failed t fault := by
  simp only [readToken]
  split
  · next extent _ =>
    cases extent with
    | closed n => exact Or.inl ⟨_, _, rfl⟩
    | unclosed construct n => exact Or.inr ⟨_, _, rfl⟩
  · rw [readWord_eq]
    split
    · split
      · exact Or.inr ⟨_, _, rfl⟩
      · exact Or.inl ⟨_, _, rfl⟩
      · exact takeWord_open _ _ _
    · exact takeWord_open _ _ _
  · exact Or.inl ⟨_, _, rfl⟩

/-- Before a token the reading goes on, or a fault ends it. -/
theorem pass_solid {c : Char} {rest : List Char} (ahead : s.cursor.ahead = c :: rest)
    (solid : s.gap? draft c = none) :
    (∃ t e, s.pass draft = .more t e) ∨ ∃ t fault, s.pass draft = .failed t fault := by
  cases begun : s.begin draft with
  | error fault => exact Or.inr ⟨s, fault, pass_of_begin_error ahead solid begun⟩
  | ok pair =>
    rw [pass_of_begin ahead solid begun]
    exact readToken_open pair.1 pair.2 c rest

/-- A statement is found before a delimiter, or at the end of the script. -/
theorem pass_found {statement : Statement} (h : s.pass draft = .found t statement) :
    ∃ d, draft = some d ∧ statement = s.cut d s.cursor ∧
      ((∃ c rest n, s.cursor.ahead = c :: rest ∧ s.gap? draft c = some (.delimiter n) ∧
          t = (s.skip n).restored) ∨
        (s.cursor.ahead = [] ∧ s.context.blocks = [] ∧ t = s.restored)) := by
  cases ahead : s.cursor.ahead with
  | nil =>
    rw [pass_of_end ahead] at h
    by_cases outside : s.context.blocks = []
    · rw [finish_outside outside] at h
      cases draft with
      | none => cases h
      | some d =>
        cases h
        exact ⟨d, rfl, rfl, Or.inr ⟨rfl, outside, rfl⟩⟩
    · rw [finish_inside outside] at h
      cases h
  | cons c rest =>
    cases found : s.gap? draft c with
    | some g =>
      rw [pass_of_gap ahead found] at h
      cases g with
      | blank => cases h
      | delimiter n =>
        cases draft with
        | none => cases h
        | some d =>
          cases h
          exact ⟨d, rfl, rfl, Or.inl ⟨c, rest, n, rfl, found, rfl⟩⟩
      | terminator n => cases h
      | comment extent => cases extent <;> cases h
    | none =>
      rcases pass_solid ahead found with ⟨_, _, same⟩ | ⟨_, _, same⟩
      · rw [same] at h
        cases h
      · rw [same] at h
        cases h

/-- Past a statement only the cursor and the active delimiter are other ones. -/
theorem restored_of_found {statement : Statement} (h : s.pass draft = .found t statement) :
    ∃ n, t = (s.skip n).restored := by
  obtain ⟨-, -, -, ⟨_, _, n, -, -, rfl⟩ | ⟨-, -, rfl⟩⟩ := pass_found h
  · exact ⟨n, rfl⟩
  · exact ⟨0, rfl⟩

/-- A statement ends outside blocks. -/
theorem outside_of_found {statement : Statement} (found : s.pass draft = .found t statement) :
    s.context.blocks = [] := by
  obtain ⟨x, -, -, ⟨_, _, _, -, gap, -⟩ | ⟨-, closed, -⟩⟩ := pass_found found
  · exact (delimiterLength?_eq_some (delimiter_of_gap? gap).2).1
  · exact closed

/-- The end is met between statements, with no block left open. -/
theorem pass_finished (h : s.pass draft = .finished t) :
    draft = none ∧ s.cursor.ahead = [] ∧ s.context.blocks = [] ∧ t = s.restored := by
  cases ahead : s.cursor.ahead with
  | nil =>
    rw [pass_of_end ahead] at h
    by_cases outside : s.context.blocks = []
    · rw [finish_outside outside] at h
      cases draft with
      | none =>
        cases h
        exact ⟨rfl, rfl, outside, rfl⟩
      | some d => cases h
    · rw [finish_inside outside] at h
      cases h
  | cons c rest =>
    cases found : s.gap? draft c with
    | some g =>
      rw [pass_of_gap ahead found] at h
      cases g with
      | blank => cases h
      | delimiter n => cases draft <;> cases h
      | terminator n => cases h
      | comment extent => cases extent <;> cases h
    | none =>
      rcases pass_solid ahead found with ⟨_, _, same⟩ | ⟨_, _, same⟩
      · rw [same] at h
        cases h
      · rw [same] at h
        cases h

/-- The passes that a fault ends. -/
inductive Fails (s : Session) (draft : Option Draft) : Session → Fault → Prop
  | comment {c : Char} {rest : List Char} {construct : Construct} {n : Nat}
      (ahead : s.cursor.ahead = c :: rest)
      (found : s.gap? draft c = some (.comment (.unclosed construct n))) :
      Fails s draft (s.skip n) (.unterminated construct s.line)
  | unclassified {c : Char} {rest : List Char} {fault : Fault}
      (ahead : s.cursor.ahead = c :: rest) (solid : s.gap? draft c = none)
      (failed : s.begin draft = .error fault) : Fails s draft s fault
  | text {c : Char} {rest : List Char} {u : Session} {d : Draft} {construct : Construct} {n : Nat}
      (ahead : s.cursor.ahead = c :: rest) (solid : s.gap? draft c = none)
      (begun : s.begin draft = .ok (u, d))
      (token : u.dialect.token u.context.startsWord c rest = .text (.unclosed construct n)) :
      Fails s draft (u.skip n) (.unterminated construct u.line)
  | directive {c : Char} {rest : List Char} {u : Session} {d : Draft} {fault : Fault}
      (ahead : s.cursor.ahead = c :: rest) (solid : s.gap? draft c = none)
      (begun : s.begin draft = .ok (u, d))
      (token : u.dialect.token u.context.startsWord c rest = .word)
      (may : u.mayDirect d = true) (line : u.directive? = .error fault) :
      Fails s draft u.afterWord (.atLine u.afterWord.line fault)
  | underflow {c : Char} {rest : List Char} {u : Session} {d : Draft}
      (ahead : s.cursor.ahead = c :: rest) (solid : s.gap? draft c = none)
      (begun : s.begin draft = .ok (u, d))
      (token : u.dialect.token u.context.startsWord c rest = .word)
      (ending : u.wordText = "END") (outside : u.context.blocks = []) :
      Fails s draft u.afterWord (.atLine u.afterWord.line .blockUnderflow)
  | unclosed (ahead : s.cursor.ahead = []) (inside : s.context.blocks ≠ []) :
      Fails s draft s
        (.unclosedBlock s.context.innermost ((draft.map (·.start.line)).getD 0))

/-- Only an `END` outside blocks is a word that cannot be taken. -/
theorem takeWord_fails {text : String} {fault : Fault} (h : s.takeWord d text = .failed t fault) :
    t = s ∧ text = "END" ∧ s.context.blocks = [] ∧ fault = .atLine s.line .blockUnderflow := by
  simp only [takeWord, beq_iff_eq] at h
  split at h
  · next ending =>
    split at h
    · cases h
    · next cause failed =>
      cases h
      cases blocks : s.context.blocks with
      | nil =>
        rw [closeBlock_nil blocks] at failed
        split at failed
        · cases failed
        · cases failed
          exact ⟨rfl, ending, rfl, rfl⟩
      | cons initiator outer =>
        rw [closeBlock_cons blocks] at failed
        cases failed
  · cases h

theorem fails_of_readToken {c : Char} {rest : List Char} {fault : Fault}
    (ahead : s.cursor.ahead = c :: rest) (solid : s.gap? draft c = none)
    (begun : s.begin draft = .ok (u, d)) (h : u.readToken d c rest = .failed t fault) :
    Fails s draft t fault := by
  rw [readToken] at h
  split at h
  case h_1 extent token =>
    cases extent with
    | closed n => cases h
    | unclosed construct n =>
      cases h
      exact .text ahead solid begun token
  case h_2 token =>
    have taken : u.afterWord.takeWord d u.wordText = .failed t fault → Fails s draft t fault := by
      intro failed
      obtain ⟨rfl, ending, outside, rfl⟩ := takeWord_fails failed
      exact .underflow ahead solid begun token ending outside
    rw [readWord_eq] at h
    split at h
    case isTrue may =>
      split at h
      case h_1 line =>
        cases h
        exact .directive ahead solid begun token may line
      case h_2 => cases h
      case h_3 => exact taken h
    case isFalse => exact taken h
  case h_3 => cases h

theorem fails_of_pass {fault : Fault} (h : s.pass draft = .failed t fault) :
    Fails s draft t fault := by
  cases ahead : s.cursor.ahead with
  | nil =>
    rw [pass_of_end ahead] at h
    by_cases outside : s.context.blocks = []
    · rw [finish_outside outside] at h
      cases draft <;> cases h
    · rw [finish_inside outside] at h
      cases h
      exact .unclosed ahead outside
  | cons c rest =>
    cases found : s.gap? draft c with
    | some g =>
      rw [pass_of_gap ahead found] at h
      cases g with
      | blank => cases h
      | delimiter n => cases draft <;> cases h
      | terminator n => cases h
      | comment extent =>
        cases extent with
        | closed n => cases h
        | unclosed construct n =>
          cases h
          exact .comment ahead found
    | none =>
      cases begun : s.begin draft with
      | error cause =>
        rw [pass_of_begin_error ahead found begun] at h
        cases h
        exact .unclassified ahead found begun
      | ok pair =>
        rw [pass_of_begin ahead found begun] at h
        exact fails_of_readToken ahead found begun h

end Session

end SqlBoundary
