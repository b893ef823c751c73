import SqlBoundary.Proofs.Comments

/-!
# The last delimiter

The last statement of a script needs no delimiter, and blanks at the end count for nothing. With a
semicolon on a line of its own behind the script, and any blanks behind that, the same statements
are read. No token goes on into that line, a search for a keyword finds nothing there, and whether
a `BEGIN` stands before it or before the end of the script makes no difference: it starts a
transaction.
-/

namespace SqlBoundary

open Text Lexeme

namespace Lexeme

variable {keywords : List String} {skip depth : Nat} {cs after : List Char}

/-- Nothing but blanks and semicolons. -/
def Void (cs : List Char) : Prop := ∀ c ∈ cs, isBlank c = true ∨ c = ';'

theorem void_nil : Void [] := fun _ mem => absurd mem List.not_mem_nil

theorem seekKeyword_void (void : Void cs) : seekKeyword keywords skip depth cs = none := by
  induction cs generalizing skip with
  | nil => simp [seekKeyword]
  | cons c rest ih =>
    have later : ∀ skip, seekKeyword keywords skip depth rest = none :=
      fun _ => ih fun x mem => void x (List.mem_cons_of_mem c mem)
    cases skip with
    | succ skip => exact later skip
    | zero =>
      rcases void c List.mem_cons_self with blank | rfl
      · have one : seekKeyword keywords 0 depth ([c] ++ rest) = seekKeyword keywords 0 depth rest :=
          seekKeyword_blanks (by simpa using blank)
        exact one.trans (later 0)
      · have name : startsName ';' = false := by decide
        by_cases outside : depth = 0
        · simp [seekKeyword, outside]
        · simp [seekKeyword, outside, isQuote, name, later 0]

/-- Neither is there anything to find for a search that goes on beyond the text. -/
theorem seekKeyword_beyond (void : Void after) (far : cs.length ≤ skip) :
    seekKeyword keywords skip depth (cs ++ after) = none := by
  induction cs generalizing skip with
  | nil => exact seekKeyword_void void
  | cons c rest ih =>
    obtain ⟨k, rfl⟩ := Nat.exists_eq_add_of_le' far
    have later : seekKeyword keywords (k + rest.length) depth (rest ++ after) = none :=
      ih (Nat.le_add_left _ k)
    exact later

/-- A quoted text ends in the same place, or goes on beyond the text with and without what comes
after. -/
theorem looseQuotedEnd_append (close : Char) (n : Nat) (cs after : List Char) :
    looseQuotedEnd close n (cs ++ after) = looseQuotedEnd close n cs ∨
      n + cs.length ≤ looseQuotedEnd close n cs ∧
        n + cs.length ≤ looseQuotedEnd close n (cs ++ after) := by
  have counted : ∀ n cs, n ≤ looseQuotedEnd close n cs := by
    intro n cs
    rw [looseQuotedEnd_add]
    exact Nat.le_add_right n _
  fun_induction looseQuotedEnd close n cs with
  | case1 n => exact Or.inr ⟨Nat.le_refl n, counted n after⟩
  | case2 n c escape =>
    refine Or.inr ⟨Nat.le_refl (n + 1), ?_⟩
    cases after with
    | nil => simp [looseQuotedEnd, escape]
    | cons x after =>
      simp only [List.cons_append, List.nil_append, looseQuotedEnd, escape, if_true]
      exact Nat.le_trans (Nat.le_succ (n + 1)) (counted (n + 2) after)
  | case3 n c escape x rest ih =>
    have size : n + (c :: x :: rest).length = n + 2 + rest.length := by
      rw [List.length_cons, List.length_cons]
      omega
    rw [size]
    simp only [List.cons_append, looseQuotedEnd, escape, if_true]
    exact ih
  | case4 n c rest plain closes =>
    refine Or.inl ?_
    rw [List.cons_append]
    unfold looseQuotedEnd
    rw [if_neg plain, if_pos closes]
  | case5 n c rest plain inner ih =>
    have size : n + (c :: rest).length = n + 1 + rest.length := by
      rw [List.length_cons]
      omega
    have one : looseQuotedEnd close n (c :: (rest ++ after)) =
        looseQuotedEnd close (n + 1) (rest ++ after) := by
      conv => lhs; unfold looseQuotedEnd
      rw [if_neg plain, if_neg inner]
    rw [size, List.cons_append, one]
    exact ih

theorem looseCommentEnd_append (cs after : List Char) :
    looseCommentEnd (cs ++ after) = looseCommentEnd cs ∨
      cs.length ≤ looseCommentEnd cs ∧ cs.length ≤ looseCommentEnd (cs ++ after) := by
  rw [looseCommentEnd, looseCommentEnd]
  cases inside : position? ['*', '/'] cs with
  | some n => exact Or.inl (by rw [position?_append after inside])
  | none =>
    refine Or.inr ⟨Nat.le_refl _, ?_⟩
    cases found : position? ['*', '/'] (cs ++ after) with
    | none =>
      dsimp only
      rw [List.length_append]
      exact Nat.le_add_right _ _
    | some n =>
      by_contra short
      have fits : n + ['*', '/'].length ≤ cs.length := Nat.le_of_lt (Nat.lt_of_not_le short)
      have alone := position?_ending (b := []) found fits
      rw [List.append_nil, inside] at alone
      cases alone

/-- The search finds nothing more on such a line. -/
theorem seekKeyword_append {more : List Char} (void : Void ('\n' :: more)) :
    seekKeyword keywords skip depth (cs ++ '\n' :: more) = seekKeyword keywords skip depth cs := by
  induction cs generalizing skip depth with
  | nil =>
    rw [List.nil_append, seekKeyword_void void, seekKeyword_void void_nil]
  | cons c rest ih =>
    cases skip with
    | succ skip => exact ih
    | zero =>
      have jump : ∀ {n m : Nat}, (m = n ∨ rest.length ≤ n ∧ rest.length ≤ m) →
          seekKeyword keywords m depth rest = seekKeyword keywords n depth rest := by
        rintro n m (rfl | ⟨far, far'⟩)
        · rfl
        · have ends : ∀ {k}, rest.length ≤ k → seekKeyword keywords k depth (rest ++ []) = none :=
            seekKeyword_beyond void_nil
          rw [List.append_nil] at ends
          rw [ends far, ends far']
      have head : ∀ x, x ≠ '\n' →
          ((rest ++ '\n' :: more).head? == some x) = (rest.head? == some x) := by
        intro x other
        cases rest with
        | nil => simp [Ne.symm other]
        | cons y rest => rfl
      have line : lineLength (rest ++ '\n' :: more) = lineLength rest := by
        rw [lineLength, lineLength, currentLine_append_of_lineEnds (Or.inr ⟨more, rfl⟩)]
      have name : (rest ++ '\n' :: more).takeWhile isNameChar = rest.takeWhile isNameChar :=
        (spanName rest (by decide) rfl).1
      rw [List.cons_append]
      unfold seekKeyword
      simp only [head '-' (by decide), head '*' (by decide), line, name, ih]
      split
      · rfl
      split
      · rfl
      split
      · rfl
      split
      · refine jump ?_
        have ends := looseQuotedEnd_append c 0 rest ('\n' :: more)
        rwa [Nat.zero_add] at ends
      split
      · rfl
      split
      · next block =>
        obtain ⟨-, star⟩ : c = '/' ∧ rest.head? = some '*' := by simpa using block
        obtain ⟨body, rfl⟩ := List.head?_eq_some_iff.mp star
        refine jump ?_
        rcases looseCommentEnd_append body ('\n' :: more) with same | ⟨far, far'⟩
        · exact Or.inl (congrArg (· + 1) same)
        · exact Or.inr ⟨Nat.succ_le_succ far, Nat.succ_le_succ far'⟩
      · rfl

end Lexeme

/-- A semicolon on a line of its own, and blanks. -/
def semicolonLine (blanks : List Char) : List Char := '\n' :: ';' :: blanks

section

variable {p q blanks : List Char} {dialect : Dialect}

theorem void_semicolonLine (blank : ∀ c ∈ blanks, isBlank c = true) :
    Void (semicolonLine blanks) := by
  intro c mem
  rcases List.mem_cons.mp mem with rfl | mem
  · exact Or.inl isBlank_lineFeed
  · rcases List.mem_cons.mp mem with rfl | mem
    · exact Or.inr rfl
    · exact Or.inl (blank c mem)

theorem lineEnds_semicolonLine : LineEnds (semicolonLine blanks) := Or.inr ⟨_, rfl⟩

/-- A delimiter of one line does not begin before such a line and go on in it. -/
theorem Delimiter.startsAt_semicolonLine {d : Delimiter} (oneLine : '\n' ∉ d.text.toList) :
    d.startsAt (q ++ semicolonLine blanks) = d.startsAt q := by
  have same : d.text.toList <+: q ++ semicolonLine blanks ↔ d.text.toList <+: q := by
    constructor
    · intro begins
      rcases List.prefix_or_prefix_of_prefix begins (List.prefix_append q _) with
        inside | ⟨more, split⟩
      · exact inside
      · rw [← split, List.prefix_append_right_inj, semicolonLine] at begins
        cases more with
        | nil => exact ⟨[], by rw [← split, List.append_nil, List.append_nil]⟩
        | cons c more =>
          rw [List.cons_prefix_cons] at begins
          refine absurd ?_ oneLine
          rw [← split, begins.1]
          exact List.mem_append_right q List.mem_cons_self
    · exact fun inside => inside.trans (List.prefix_append q _)
  rw [Bool.eq_iff_iff, startsAt, startsAt]
  simp only [Bool.and_eq_true, List.isPrefixOf_iff_prefix, same]

/-- Before a semicolon a `BEGIN` starts a transaction, as it does before the end of the script. -/
theorem beginsTransaction_semicolonLine {ctx : Context}
    (stops : dialect.Stops (semicolonLine blanks)) (kind : ctx.kind = dialect.kind) :
    BlockGrammar.beginsTransaction (ctx.tokenAhead? (q ++ semicolonLine blanks)) =
      BlockGrammar.beginsTransaction (ctx.tokenAhead? q) := by
  by_cases solid : ∃ c ∈ q, isBlank c = false
  · rw [stops.tokenAhead?_alone kind solid]
  · have blank : ∀ c ∈ q, isBlank c = true := by
      intro c mem
      by_contra other
      exact solid ⟨c, mem, Bool.eq_false_iff.mpr other⟩
    have next : ctx.tokenAhead? (q ++ semicolonLine blanks) = some ";" := by
      rw [semicolonLine, List.append_cons]
      refine ctx.tokenAhead?_semicolon ?_ blanks
      intro c mem
      rcases List.mem_append.mp mem with mem | mem
      · exact blank c mem
      · rw [List.mem_singleton.mp mem]
        exact isBlank_lineFeed
    rw [ctx.tokenAhead?_blanks blank, next]
    rfl

end

namespace Session

variable {s s' t u : Session} {draft draft' e f : Option Draft} {x : Draft} {c : Char}
variable {p q r w blanks : List Char} {dialect : Dialect} {statement : Statement}

section

variable (regular : Regular dialect s draft) (stops : dialect.Stops (semicolonLine blanks))
include regular stops

/-- A gap is seen alike if it ends before the end of the script. -/
theorem gap?_semicolonLine (ahead : s.cursor.ahead = q) (nonempty : q ≠ [])
    (comment : ∀ extent, s.gap? draft c = some (.comment extent) → ∃ n, extent = .closed n) :
    (s.facing (q ++ semicolonLine blanks)).gap? draft c = s.gap? draft c := by
  have oneLine : '\n' ∉ s.context.delimiter.text.toList := by
    rw [regular.own]
    exact regular.oneLine
  have starts : s.context.delimiter.startsAt (q ++ semicolonLine blanks) =
      s.context.delimiter.startsAt q := Delimiter.startsAt_semicolonLine oneLine
  have active : (s.facing (q ++ semicolonLine blanks)).delimiterLength? = s.delimiterLength? := by
    simp only [delimiterLength?, facing, regular.inline.active, ahead, starts]
    rfl
  have standing : ∀ z : Session, z.dialect = s.dialect → z.atTerminator = false := by
    intro z same
    rw [atTerminator, same, regular.inline.dialect.terminator]
    rfl
  by_cases blank : isBlank c = true
  · rw [gap?, gap?, if_pos blank, if_pos blank]
  cases found : s.delimiterLength? with
  | some n => simp only [gap?, blank, active, found]
  | none =>
    have read : ∀ z : Session, z.dialect = s.dialect → z.delimiterLength? = none →
        z.gap? draft c = (s.dialect.comment? z.cursor.ahead).map .comment := by
      intro z same none
      simp only [gap?, blank, none, standing z same, same]
      simp
    have here := read s rfl found
    have there := read (s.facing (q ++ semicolonLine blanks)) rfl (active.trans found)
    rw [ahead] at here
    rw [there, here]
    change (s.dialect.comment? (q ++ semicolonLine blanks)).map Gap.comment = _
    congr 1
    have alone : q ++ [] = q := List.append_nil q
    cases plain : s.dialect.comment? q with
    | none =>
      rw [← alone] at plain
      refine (regular.dialect ▸ stops).comment?_none nonempty (fun _ => ?_) plain
      simp [semicolonLine]
    | some extent =>
      obtain ⟨n, rfl⟩ := comment extent (by rw [here, plain]; rfl)
      have fits := Dialect.comment?_le plain
      rw [← alone] at plain
      exact Dialect.Stops.comment?_closed nonempty plain fits fun _ _ => lineEnds_semicolonLine

/-- All is seen alike by a pass that does not fail. -/
theorem sees_semicolonLine (blank : ∀ c ∈ blanks, isBlank c = true) (ahead : s.cursor.ahead = q)
    (nonempty : q ≠ []) (unfailed : ∀ z fault, s.pass draft ≠ .failed z fault) :
    s.Sees draft (q ++ semicolonLine blanks) := by
  have gap : ∀ c, c ∈ s.cursor.ahead.head? →
      (s.facing (q ++ semicolonLine blanks)).gap? draft c = s.gap? draft c := by
    intro c head
    obtain ⟨rest, here⟩ := List.head?_eq_some_iff.mp head
    refine gap?_semicolonLine regular stops ahead nonempty ?_
    intro extent found
    cases extent with
    | closed n => exact ⟨n, rfl⟩
    | unclosed construct n =>
      refine absurd ?_ (unfailed (s.skip n) (.unterminated construct s.line))
      rw [pass_of_gap here found]
      rfl
  obtain ⟨c, r, rfl⟩ := List.exists_cons_of_ne_nil nonempty
  refine ⟨by rw [ahead]; rfl, fun y head => gap y (by rw [ahead]; exact head), ?_⟩
  rintro y ⟨⟩ solid u x begun
  have same : u.dialect = dialect := (begin_dialect begun).trans regular.dialect
  have kind : u.context.kind = dialect.kind := by
    rw [typed_begin regular.typed begun, regular.dialect]
  have active : u.context.delimiter = s.scriptDelimiter := by
    obtain ⟨kind, rfl⟩ := begin_ok begun
    exact regular.own
  have here : u.cursor.ahead = c :: (r ++ []) := by
    rw [begin_cursor begun, ahead, List.append_nil]
  refine seesToken_of_stops (same.symm ▸ Dialect.stops_nil dialect) (same.symm ▸ stops) here ?_ ?_
  · intro extent token
    rw [List.append_nil] at token
    cases extent with
    | closed n => exact ⟨n, rfl, Dialect.token_le token⟩
    | unclosed construct n =>
      refine absurd ?_ (unfailed (u.skip n) (.unterminated construct u.line))
      rw [pass_of_begin ahead solid begun, readToken, token]
      rfl
  · intro _
    obtain ⟨w, split⟩ := u.context.wordAhead_prefix u.cursor.ahead
    have text : c :: r = u.word ++ w := by
      rw [← List.append_nil (c :: r)]
      exact here.symm.trans split.symm
    rw [← List.cons_append, text, List.append_assoc]
    refine seesWord_of_stops (a := []) (same.symm ▸ stops) (kind.trans (congrArg _ same.symm)) ?_
      ?_ (Or.inl ?_) ?_
    · rw [List.append_nil]
      exact split.symm
    · intro r _ _ _
      rw [active, Delimiter.startsAt_semicolonLine regular.oneLine, List.append_nil]
    · rw [currentLine_append_of_lineEnds lineEnds_semicolonLine, List.append_nil]
    · refine ⟨fun _ => ?_, fun keywords _ => ?_⟩
      · rw [beginsTransaction_semicolonLine stops kind, List.append_nil]
      · rw [List.append_nil]
        exact seekKeyword_append (void_semicolonLine blank)

variable (blank : ∀ c ∈ blanks, isBlank c = true)
include blank

theorem step_semicolonLine (h : Step s draft t e)
    (twinned : Twinned p [] (semicolonLine blanks) s draft s' draft') :
    ∃ t' e', Step s' draft' t' e' ∧ Twinned p [] (semicolonLine blanks) t e t' e' := by
  have whole : s.cursor.ahead = s.cursor.ahead ++ [] := (List.append_nil _).symm
  have sees : s.Sees draft s'.cursor.ahead := by
    rw [twinned.ahead whole]
    refine sees_semicolonLine regular stops blank rfl (step_ahead h) ?_
    intro z fault
    rw [pass_of_step h]
    exact nofun
  obtain ⟨t', e', n, step, twins, fits, moved, moved'⟩ :=
    step_matched h twinned.twins (sees.matches regular.inline twinned.twins)
  refine ⟨t', e', step, twins, ?_, twins.together twinned.together twinned.facing h step⟩
  rw [moved, moved']
  exact twinned.facing.skip fits

/-- A statement that is ended by a delimiter. -/
theorem found_semicolonLine (h : s.pass draft = .found t statement)
    (twinned : Twinned p [] (semicolonLine blanks) s draft s' draft')
    (nonempty : s.cursor.ahead ≠ []) :
    ∃ t', s'.pass draft' = .found t' statement ∧
      Twinned p [] (semicolonLine blanks) t none t' none := by
  have whole : s.cursor.ahead = s.cursor.ahead ++ [] := (List.append_nil _).symm
  have sees : s.Sees draft s'.cursor.ahead := by
    rw [twinned.ahead whole]
    refine sees_semicolonLine regular stops blank rfl nonempty ?_
    intro z fault
    rw [h]
    exact nofun
  obtain ⟨d, d', t', n, rfl, rfl, cut, pass, twins, fits, moved, moved'⟩ :=
    found_matched h twinned.twins (sees.matches regular.inline twinned.twins)
  cases twinned.together with
  | some starts =>
    obtain ⟨same, -⟩ := cut_facing twinned.twins.alike.delimiter starts twinned.facing
    refine ⟨t', by rw [pass, same, cut], twins, ?_, .none⟩
    rw [moved, moved']
    exact twinned.facing.skip fits

end

theorem passes_semicolonLine (h : Passes s draft u f) (regular : Regular dialect s draft)
    (stops : dialect.Stops (semicolonLine blanks)) (blank : ∀ c ∈ blanks, isBlank c = true)
    (twinned : Twinned p [] (semicolonLine blanks) s draft s' draft') :
    ∃ u' f', Passes s' draft' u' f' ∧ Twinned p [] (semicolonLine blanks) u f u' f' ∧
      Regular dialect u f := by
  induction h generalizing s' draft' with
  | refl => exact ⟨s', draft', .refl s' draft', twinned, regular⟩
  | step first _ ih =>
    obtain ⟨t', e', step, later⟩ := step_semicolonLine regular stops blank first twinned
    obtain ⟨u', f', passes, rest⟩ := ih (step_regular first regular) later
    exact ⟨u', f', .step step passes, rest⟩

section

variable (ahead : s.cursor.ahead = semicolonLine blanks)
include ahead

/-- The line feed is passed. -/
theorem step_lineFeed : Step s draft (s.skip 1) draft :=
  .gap ahead (by rw [gap?, isBlank_lineFeed]; rfl) rfl

/-- Behind it there is no statement. -/
theorem onward_behind (blank : ∀ c ∈ blanks, isBlank c = true) (live : s.exhausted = false)
    (outside : s.context.blocks = []) : ((s.skip 1).skip 1).restored.onward none = .ok [] := by
  have rest : ((s.skip 1).skip 1).restored.cursor.ahead = blanks := by
    have here : (s.skip 1).cursor.ahead = ';' :: blanks := skip_one_ahead ahead
    exact skip_one_ahead here
  have last := next_of_blanks (s := ((s.skip 1).skip 1).restored) outside (rest.symm ▸ blank)
  have live : ((s.skip 1).skip 1).restored.exhausted = false := live
  rw [onward_none live, remaining_of_none live last]

end

/-- The line feed behind a statement does not belong to it. -/
theorem cut_lineFeed {d d' : Draft} {more : List Char}
    (delimiter : s'.context.delimiter = s.context.delimiter)
    (starts : Facing p [] ('\n' :: more) d.start d'.start)
    (cursors : Facing p [] ('\n' :: more) s.cursor s'.cursor) (ended : s.cursor.ahead = []) :
    (s'.skip 1).cut d' (s'.skip 1).cursor = s.cut d s.cursor := by
  obtain ⟨r₀, r₁, rfl, start, start'⟩ := starts.places
  obtain ⟨p₀, p₁, place, cursor, cursor'⟩ := cursors.places
  obtain ⟨rfl, -⟩ : p₁ = [] ∧ True := by
    rw [cursor] at ended
    exact ⟨(List.append_eq_nil_iff.mp ended).1, trivial⟩
  rw [List.append_nil] at place
  subst place
  have text : d.start.upTo s.cursor = r₁ := by
    rw [start, cursor]
    exact Cursor.upTo_between r₀ r₁ []
  have stop : (s'.skip 1).cursor = .between (r₀ ++ (r₁ ++ ['\n'])) more := by
    rw [skip_cursor, cursor', Cursor.skip_between, ← List.append_assoc]
    rfl
  have text' : d'.start.upTo (s'.skip 1).cursor = r₁ ++ ['\n'] := by
    rw [start', stop, List.append_cons]
    exact Cursor.upTo_between r₀ (r₁ ++ ['\n']) more
  have trimmed : trimEnd (r₁ ++ ['\n']) = trimEnd r₁ :=
    trimEnd_append (by simp [isBlank_lineFeed]) r₁
  simp only [cut, text, text', trimmed]
  rw [start, start', skip_context, delimiter]
  rfl

section

variable (regular : Regular dialect s draft) (blank : ∀ c ∈ blanks, isBlank c = true)
variable (twinned : Twinned p [] (semicolonLine blanks) s draft s' draft')
variable (ended : s.cursor.ahead = []) (delimiter : s.context.delimiter = .semicolon)
variable (level : s.context.parens = 0)
include regular blank twinned ended delimiter level

/-- What ends with the script is ended by the semicolon. -/
theorem onward_found_end (h : s.pass draft = .found t statement) :
    s'.onward draft' = .ok [statement] := by
  have alike := twinned.twins.alike
  have ahead' : s'.cursor.ahead = semicolonLine blanks := twinned.ahead (k := []) ended
  have outside := outside_of_found h
  have outside' : s'.context.blocks = [] := alike.blocks.trans outside
  have live : s'.exhausted = false := alike.exhausted.trans regular.live
  have live' : ((s'.skip 1).skip 1).restored.exhausted = false := live
  have grammar : s'.dialect.blocks ≠ .oracle := alike.dialect ▸ regular.inline.dialect.grammar
  have here : (s'.skip 1).cursor.ahead = ';' :: blanks := skip_one_ahead ahead'
  have active : (s'.skip 1).delimiterLength? = some 1 :=
    delimiterLength?_semicolon outside' (alike.parens.trans level)
      (alike.delimiter.trans delimiter) here
  obtain ⟨d, rfl, rfl, -⟩ := pass_found h
  cases twinned.together with
  | @some _ d' starts =>
    have pass := pass_of_delimiter (d := d') here (by decide) active
    rw [cut_lineFeed alike.delimiter starts twinned.facing ended] at pass
    rw [onward_of_passes (classified_of_grammar grammar)
      (.step (step_lineFeed ahead') (.refl _ _)), onward_of_found live' pass,
      onward_behind ahead' blank live outside']
    rfl

theorem onward_finished_end (h : s.pass draft = .finished t) : s'.onward draft' = .ok [] := by
  have alike := twinned.twins.alike
  have ahead' : s'.cursor.ahead = semicolonLine blanks := twinned.ahead (k := []) ended
  obtain ⟨rfl, -, outside, -⟩ := pass_finished h
  have outside' : s'.context.blocks = [] := alike.blocks.trans outside
  have live : s'.exhausted = false := alike.exhausted.trans regular.live
  have grammar : s'.dialect.blocks ≠ .oracle := alike.dialect ▸ regular.inline.dialect.grammar
  have here : (s'.skip 1).cursor.ahead = ';' :: blanks := skip_one_ahead ahead'
  have active : (s'.skip 1).delimiterLength? = some 1 :=
    delimiterLength?_semicolon outside' (alike.parens.trans level)
      (alike.delimiter.trans delimiter) here
  cases twinned.together with
  | none =>
    have gap : (s'.skip 1).gap? none ';' = some (.delimiter 1) := by
      have solid : isBlank ';' = false := by decide
      rw [gap?, solid, active]
      rfl
    rw [onward_of_passes (classified_of_grammar grammar) (.step (step_lineFeed ahead')
      (.step (.delimiter here gap) (.refl _ _)))]
    exact onward_behind ahead' blank live outside'

end

/-- If the run ends with the semicolon as its delimiter and outside parentheses, the other run
finds the same statements. -/
theorem remaining_semicolonLine {statements : List Statement}
    (stops : dialect.Stops (semicolonLine blanks)) (blank : ∀ c ∈ blanks, isBlank c = true)
    (regular : Regular dialect s none)
    (twinned : Twinned p [] (semicolonLine blanks) s none s' none)
    (split : s.remaining.2 = .ok statements)
    (delimiter : s.remaining.1.context.delimiter = .semicolon)
    (level : s.remaining.1.context.parens = 0) : s'.remaining.2 = .ok statements := by
  induction statements generalizing s s' with
  | nil =>
    rcases remaining_ok_cases regular.live split with ⟨-, t, next⟩ | ⟨_, _, _, same, -⟩
    · obtain ⟨u, f, passes, finished⟩ := passes_of_finished next
      obtain ⟨u', f', passes', later, regular'⟩ :=
        passes_semicolonLine passes regular stops blank twinned
      obtain ⟨rfl, ended, -, rfl⟩ := pass_finished finished
      rw [remaining_of_none regular.live next] at delimiter level
      have live : s'.exhausted = false := twinned.twins.alike.exhausted.trans regular.live
      rw [← onward_none live, onward_of_passes (classified_none s') passes']
      exact onward_finished_end regular' blank later ended (regular'.own.trans delimiter) level
        finished
    · cases same
  | cons statement later ih =>
    rcases remaining_ok_cases regular.live split with ⟨none, -⟩ | ⟨t, _, _, same, next, rest⟩
    · cases none
    · cases same
      obtain ⟨u, f, passes, found⟩ := passes_of_found next
      obtain ⟨u', f', passes', after, regular'⟩ :=
        passes_semicolonLine passes regular stops blank twinned
      have live : s'.exhausted = false := twinned.twins.alike.exhausted.trans regular.live
      rw [remaining_of_found regular.live next] at delimiter level
      rw [← onward_none live, onward_of_passes (classified_none s') passes']
      by_cases ended : u.cursor.ahead = []
      · obtain ⟨d, rfl, -, ⟨c, cs, n, here, -, -⟩ | ⟨-, outside, rfl⟩⟩ := pass_found found
        · rw [ended] at here
          cases here
        · have nothing : ∀ c ∈ u.restored.cursor.ahead, isBlank c = true := by
            have none : u.restored.cursor.ahead = [] := ended
            rw [none]
            exact fun _ mem => absurd mem List.not_mem_nil
          have last := remaining_of_none (s := u.restored) regular'.live
            (next_of_blanks outside nothing)
          rw [last] at rest delimiter level
          cases rest
          exact onward_found_end regular' blank after ended (regular'.own.trans delimiter) level
            found
      · obtain ⟨t', found', twinned'⟩ := found_semicolonLine regular' stops blank found after ended
        have next := found_regular found regular'
        have live' : t'.exhausted = false := twinned'.twins.alike.exhausted.trans next.live
        rw [onward_of_found live' found', onward_none live',
          ih next twinned' rest delimiter level]
        rfl

end Session

/-- The last delimiter and blanks behind it can be left out. Where a run ends outside parentheses
and with the semicolon as its delimiter, one behind the script changes nothing. -/
theorem split_append_semicolon {v : Vendor} (vendor : v = .generic ∨ v = .mysql ∨ v = .postgres)
    {script blanks : String} {statements : List Statement}
    (split : split v.dialect script = .ok statements)
    (delimiter : (Session.final v.dialect v.dialect.defaultDelimiter script).context.delimiter =
      .semicolon)
    (level : (Session.final v.dialect v.dialect.defaultDelimiter script).context.parens = 0)
    (blank : ∀ c ∈ blanks.toList, isBlank c = true) :
    SqlBoundary.split v.dialect (script ++ "\n;" ++ blanks) = .ok statements := by
  have spacing := Vendor.spacing vendor
  have default : v.dialect.defaultDelimiter = .semicolon := by
    rcases vendor with rfl | rfl | rfl <;> rfl
  rw [SqlBoundary.split, default] at split
  rw [default] at delimiter level
  have stops : v.dialect.Stops (semicolonLine blanks.toList) :=
    Dialect.stops_cons (v.halts_of_blank isBlank_lineFeed) _
  have regular : Session.Regular v.dialect (.ofScript v.dialect .semicolon script) none :=
    Session.visits_regular spacing.steadfast rfl (by decide) .start
  have whole : script.toList = script.toList ++ [] := (List.append_nil _).symm
  have whole' : (script ++ "\n;" ++ blanks).toList =
      script.toList ++ semicolonLine blanks.toList := by
    simp [semicolonLine]
  have twinned : Session.Twinned script.toList [] (semicolonLine blanks.toList)
      (.ofScript v.dialect .semicolon script) none
      (.ofScript v.dialect .semicolon (script ++ "\n;" ++ blanks)) none :=
    Session.start_twinned whole whole'
  rw [SqlBoundary.split, default]
  exact Session.remaining_semicolonLine stops blank regular twinned split delimiter level

/-- After a directive back to the semicolon, the script ends with a `BEGIN`. -/
theorem split_append_semicolon_begin :
    split .mysql "DELIMITER //\nSELECT 1//\nDELIMITER ;\nBEGIN" =
        .ok [⟨2, 13, 21, "SELECT 1", .inline "//"⟩, ⟨4, 36, 41, "BEGIN", .semicolon⟩] ∧
      split .mysql ("DELIMITER //\nSELECT 1//\nDELIMITER ;\nBEGIN" ++ "\n;" ++ " \n") =
        .ok [⟨2, 13, 21, "SELECT 1", .inline "//"⟩, ⟨4, 36, 41, "BEGIN", .semicolon⟩] := by
  have alone : split Vendor.mysql.dialect "DELIMITER //\nSELECT 1//\nDELIMITER ;\nBEGIN" =
      .ok [⟨2, 13, 21, "SELECT 1", .inline "//"⟩, ⟨4, 36, 41, "BEGIN", .semicolon⟩] := by
    decide +kernel
  exact ⟨alone, split_append_semicolon (v := .mysql) (Or.inr (Or.inl rfl)) alone
    (by decide +kernel) (by decide +kernel) (by decide)⟩

end SqlBoundary
