import SqlBoundary.Proofs.Calls

/-!
# The delimiter after a fault

A stored unit of Oracle makes a line with a slash its delimiter, and the script's own delimiter
is put back where that line is met. A fault inside the unit leaves the slash active. The calls
after it then read on for such a line, whatever they read, until one of them meets it or the end
of the script. These are the only calls at whose start another delimiter than the script's own
is active.
-/

namespace SqlBoundary

open BlockGrammar

/-- The first words of a unit tell that it is one, whatever word comes after them. -/
theorem isUnit_more {leading : List String} (unit : isUnit leading = true) (word : String) :
    isUnit (leading ++ [word]) = true := by
  cases leading with
  | nil => cases unit
  | cons first rest =>
    by_cases declare : first = "DECLARE"
    · rw [declare]
      rfl
    by_cases begin : first = "BEGIN"
    · rw [begin]
      rfl
    by_cases create : first = "CREATE"
    · rw [create] at unit ⊢
      simp only [isUnit, List.cons_append] at unit ⊢
      rw [← List.cons_append, List.find?_append]
      cases kind : ("CREATE" :: rest).find? (!createModifiers.contains ·) with
      | some found =>
        rw [kind] at unit
        exact unit
      | none =>
        rw [kind] at unit
        cases unit
    · simp [isUnit, declare, begin, create] at unit

theorem statementDelimiter?_more {grammar : BlockGrammar} {leading : List String}
    (asks : (grammar.statementDelimiter? leading).isSome = true) (word : String) :
    (grammar.statementDelimiter? (leading ++ [word])).isSome = true := by
  cases grammar with
  | common => cases asks
  | mysql => cases asks
  | oracle =>
    have unit : isUnit leading = true := by
      by_cases unit : isUnit leading = true
      · exact unit
      · simp [statementDelimiter?, unit] at asks
    simp [statementDelimiter?, isUnit_more unit word]

theorem Vendor.oracle_of_blocks {v : Vendor} (grammar : v.dialect.blocks = .oracle) :
    v = .oracle ∧ v.dialect.delimiterDirective = false := by
  cases v with
  | oracle => exact ⟨rfl, rfl⟩
  | generic => cases grammar
  | mysql => cases grammar
  | postgres => cases grammar
  | sqlserver => cases grammar

namespace Session

variable {s t u v : Session} {draft e f : Option Draft} {d : Draft} {fault : Fault}

/-- The statement has taken a delimiter of its own from its first words. -/
def Switched (s : Session) (draft : Option Draft) : Prop :=
  ∃ d, draft = some d ∧ (s.dialect.blocks.statementDelimiter? d.leading).isSome = true

/-- The next pass takes a delimiter. -/
def AtDelimiter (s : Session) (draft : Option Draft) : Prop :=
  ∃ c rest n, s.cursor.ahead = c :: rest ∧ s.gap? draft c = some (.delimiter n)

/-- Passes none of which takes a delimiter. -/
inductive Undelimited : Session → Option Draft → Session → Option Draft → Prop
  | refl (s : Session) (draft : Option Draft) : Undelimited s draft s draft
  | step {s t u : Session} {draft e f : Option Draft} (first : Step s draft t e)
      (apart : ¬ s.AtDelimiter draft) (rest : Undelimited t e u f) : Undelimited s draft u f

theorem passes_of_undelimited (h : Undelimited s draft u f) : Passes s draft u f := by
  induction h with
  | refl s draft => exact .refl s draft
  | step first _ _ ih => exact .step first ih

/-- Where a statement has taken its own delimiter, that is active. -/
theorem slash_of_switched (switched : s.Switched draft) (classified : s.Classified draft) :
    s.dialect.blocks = .oracle ∧ s.context.delimiter = .slash := by
  obtain ⟨x, rfl, asks⟩ := switched
  obtain ⟨y, asked⟩ := Option.isSome_iff_exists.mp asks
  obtain ⟨grammar, rfl⟩ := statementDelimiter?_eq_some asked
  exact ⟨grammar, classified x rfl .slash asked⟩

theorem switched_begin (switched : s.Switched draft) (begun : s.begin draft = .ok (u, d)) :
    u.Switched (some d) := by
  obtain ⟨x, rfl, asks⟩ := switched
  cases begun
  exact ⟨d, rfl, asks⟩

/-- The statement keeps its own delimiter as long as it lasts. -/
theorem step_switched (h : Step s draft t e) (switched : s.Switched draft) : t.Switched e := by
  have dialect := step_dialect h
  cases h with
  | gap => exact switched
  | delimiter =>
    obtain ⟨x, none, -⟩ := switched
    cases none
  | text _ _ begun =>
    obtain ⟨x, same, asks⟩ := switched_begin switched begun
    cases same
    exact ⟨_, rfl, asks⟩
  | symbol _ _ begun =>
    obtain ⟨x, same, asks⟩ := switched_begin switched begun
    cases same
    rw [countParen_eq]
    exact ⟨_, rfl, asks⟩
  | directive _ _ begun _ may =>
    obtain ⟨x, same, asks⟩ := switched_begin switched begun
    cases same
    have unasked : ∀ grammar : BlockGrammar, grammar.statementDelimiter? [] = none := by
      intro grammar
      cases grammar <;> rfl
    rw [(mayDirect_iff.mp may).1, unasked] at asks
    cases asks
  | @word _ _ c rest u _ x _ _ begun _ _ taken =>
    obtain ⟨y, same, asks⟩ := switched_begin switched begun
    cases same
    obtain ⟨rfl, -⟩ := takeWord_more taken
    refine ⟨_, rfl, ?_⟩
    rw [dialect, ← begin_dialect begun, Draft.afterWord]
    dsimp only
    split
    · exact statementDelimiter?_more asks u.wordText
    · exact asks

/-- Without directives only a delimiter puts the script's own back. -/
theorem step_undelimited (h : Step s draft t e) (apart : ¬ s.AtDelimiter draft)
    (plain : s.dialect.delimiterDirective = false) :
    t.context.delimiter = s.context.delimiter ∨ t.context.delimiter = .slash := by
  rcases step_delimiter h with same | slash | ⟨outside, -⟩
  · exact Or.inl same
  · exact Or.inr slash
  · cases h with
    | gap => exact Or.inl rfl
    | delimiter ahead found => exact absurd ⟨_, _, _, ahead, found⟩ apart
    | text => cases outside
    | symbol => cases outside
    | directive _ _ begun _ may =>
      have directive := (mayDirect_iff.mp may).2.2
      rw [begin_dialect begun, plain] at directive
      cases directive
    | word _ _ _ _ _ taken =>
      obtain ⟨rfl, -⟩ := takeWord_more taken
      cases outside

/-- A step makes the script's own delimiter active, or that of the statement, or none. -/
theorem step_own (h : Step s draft t e) : t.context.delimiter = t.scriptDelimiter ∨
    t.Switched e ∨ ¬ s.AtDelimiter draft ∧ t.context.delimiter = s.context.delimiter ∧
      t.scriptDelimiter = s.scriptDelimiter := by
  have apart : ∀ {c rest}, s.cursor.ahead = c :: rest →
      (∀ n, s.gap? draft c ≠ some (.delimiter n)) → ¬ s.AtDelimiter draft := by
    rintro c rest ahead other ⟨x, later, n, here, found⟩
    rw [ahead] at here
    cases here
    exact other n found
  cases h with
  | gap ahead found length =>
    refine Or.inr (Or.inr ⟨apart ahead ?_, rfl, rfl⟩)
    intro n delimiter
    rw [found] at delimiter
    cases delimiter
    cases length
  | delimiter => exact Or.inl rfl
  | text ahead solid begun =>
    obtain ⟨kind, rfl⟩ := begin_ok begun
    exact Or.inr (Or.inr ⟨apart ahead (by simp [solid]), rfl, rfl⟩)
  | symbol ahead solid begun =>
    obtain ⟨kind, rfl⟩ := begin_ok begun
    rw [countParen_eq]
    exact Or.inr (Or.inr ⟨apart ahead (by simp [solid]), rfl, rfl⟩)
  | directive => exact Or.inl rfl
  | @word _ _ c rest u _ x ahead solid begun _ _ taken =>
    obtain ⟨kind, rfl⟩ := begin_ok begun
    obtain ⟨rfl, blocks, lastClosed, warnings, rfl⟩ := takeWord_more taken
    rw [classify_eq]
    cases asked : x.asks s.dialect.blocks (wordText { s with context := { s.context with kind } })
      with
    | none =>
      refine Or.inr (Or.inr ⟨apart ahead (by simp [solid]), ?_, rfl⟩)
      change (x.asks s.dialect.blocks _).getD s.context.delimiter = s.context.delimiter
      rw [asked]
      rfl
    | some y =>
      refine Or.inr (Or.inl ⟨_, rfl, ?_⟩)
      rw [Draft.asks] at asked
      split at asked
      · next few =>
        rw [Draft.afterWord, if_pos few]
        exact Option.isSome_iff_exists.mpr ⟨y, asked⟩
      · cases asked

/-- Passes make the script's own delimiter active, or that of the statement, or none. -/
theorem passes_own (h : Passes s draft u f) : u.context.delimiter = u.scriptDelimiter ∨
    u.Switched f ∨ Undelimited s draft u f ∧ u.context.delimiter = s.context.delimiter ∧
      u.scriptDelimiter = s.scriptDelimiter := by
  induction h with
  | refl s draft => exact Or.inr (Or.inr ⟨.refl s draft, rfl, rfl⟩)
  | @step s t u draft e f first rest ih =>
    rcases ih with own | switched | ⟨later, delimiter, script⟩
    · exact Or.inl own
    · exact Or.inr (Or.inl switched)
    rcases step_own first with own | switched | ⟨apart, delimiter', script'⟩
    · exact Or.inl (by rw [delimiter, script, own])
    · refine Or.inr (Or.inl ?_)
      clear delimiter script rest first
      induction later with
      | refl => exact switched
      | step first _ _ ih => exact ih (step_switched first switched)
    · exact Or.inr (Or.inr
        ⟨.step first apart later, delimiter.trans delimiter', script.trans script'⟩)

/-- A slash that is active stays so where no delimiter is met. -/
theorem undelimited_slash (h : Undelimited s draft u f)
    (plain : s.dialect.delimiterDirective = false) (slash : s.context.delimiter = .slash) :
    u.context.delimiter = .slash := by
  induction h with
  | refl => exact slash
  | step first apart _ ih =>
    apply ih
    · rw [step_dialect first]
      exact plain
    · rcases step_undelimited first apart plain with same | slash
      · rw [same]
        assumption
      · exact slash

/-- The last of these calls that read the script failed with the delimiter of a stored unit
active: inside the unit, or in a later call before any delimiter was met. -/
inductive CutOff (s : Session) : List Call → Prop
  | inside {calls : List Call} {c : Call} {u v : Session} {f : Option Draft} {fault : Fault}
      (reads : (s.after calls).Reads c) (passes : Passes (s.after calls) none u f)
      (failed : u.pass f = .failed v fault) (switched : u.Switched f) : CutOff s (calls ++ [c])
  | later {calls : List Call} {c : Call} {u v : Session} {f : Option Draft} {fault : Fault}
      (before : CutOff s calls) (reads : (s.after calls).Reads c)
      (passes : Undelimited (s.after calls) none u f) (failed : u.pass f = .failed v fault) :
      CutOff s (calls ++ [c])
  | silent {calls : List Call} {c : Call} (before : CutOff s calls)
      (ended : ¬ (s.after calls).Reads c) : CutOff s (calls ++ [c])

theorem after_one (calls : List Call) (c : Call) :
    s.after (calls ++ [c]) = ((s.after calls).answer c).1 :=
  after_append calls [c]

theorem after_keeps {P : Session → Prop} (calls : List Call)
    (mark : ∀ t exhausted, P t → P { t with exhausted })
    (steps : ∀ t e u f, Step t e u f → P t → P u)
    (answers : ∀ t e u r, (Session.pass t e).answer? = some (u, r) → P t → P u)
    (holds : P s) : P (s.after calls) := by
  induction calls generalizing s with
  | nil => exact holds
  | cons c later ih => exact ih (answer_keeps c mark steps answers holds)

theorem after_dialect (calls : List Call) : (s.after calls).dialect = s.dialect := by
  apply after_keeps (P := fun t => t.dialect = s.dialect) calls (fun _ _ same => same)
  · intro t e u f step same
    exact (step_dialect step).trans same
  · intro t e u r answer same
    exact (answer?_dialect answer).trans same
  · rfl

theorem after_script (plain : s.dialect.delimiterDirective = false) (calls : List Call) :
    (s.after calls).scriptDelimiter = s.scriptDelimiter := by
  have kept := after_keeps (s := s) (P := fun t => t.dialect = s.dialect ∧
    t.scriptDelimiter = s.scriptDelimiter) calls (fun _ _ same => same) ?_ ?_ ⟨rfl, rfl⟩
  · exact kept.2
  · rintro t e u f step ⟨dialect, same⟩
    refine ⟨(step_dialect step).trans dialect, ?_⟩
    rw [← dialect] at plain
    exact (step_scriptDelimiter step plain).trans same
  · rintro t e u r answer ⟨dialect, same⟩
    obtain ⟨n, _, _, rfl, -⟩ := answer_frame answer
    exact ⟨dialect, same⟩

/-- A call that fails leaves both delimiters as they were where the pass failed. -/
theorem after_failed {calls : List Call} {c : Call} (reads : (s.after calls).Reads c)
    (passes : Passes (s.after calls) none u f) (failed : u.pass f = .failed v fault) :
    (s.after (calls ++ [c])).context.delimiter = u.context.delimiter ∧
      (s.after (calls ++ [c])).scriptDelimiter = u.scriptDelimiter := by
  have next : (s.after calls).next = (v, .error fault) := by
    refine (read_of_passes passes (classified_none _)).trans ?_
    exact read_of_answer (by rw [failed]; rfl)
  obtain ⟨exhausted, answer⟩ := answer_of_reads reads
  obtain ⟨n, kind, rfl⟩ := failed_frame failed
  rw [after_one, answer, next]
  exact ⟨rfl, rfl⟩

theorem after_silent {calls : List Call} {c : Call} (ended : ¬ (s.after calls).Reads c) :
    s.after (calls ++ [c]) = s.after calls := by
  rw [after_one, answer_of_silent ended]

/-- After calls that were cut off, a line with a slash is the delimiter. -/
theorem CutOff.slash {calls : List Call} (cut : CutOff s calls)
    (plain : s.dialect.blocks = .oracle → s.dialect.delimiterDirective = false) :
    s.dialect.blocks = .oracle ∧ (s.after calls).context.delimiter = .slash := by
  induction cut with
  | inside reads passes failed switched =>
    have classified := passes_classified passes (classified_none _)
    obtain ⟨grammar, slash⟩ := slash_of_switched switched classified
    rw [(passes_same passes).1, after_dialect] at grammar
    exact ⟨grammar, (after_failed reads passes failed).1.trans slash⟩
  | @later calls _ _ _ _ _ before reads passes failed ih =>
    have plain' : (s.after calls).dialect.delimiterDirective = false :=
      after_dialect (s := s) calls ▸ plain ih.1
    have slash := undelimited_slash passes plain' ih.2
    exact ⟨ih.1, (after_failed reads (passes_of_undelimited passes) failed).1.trans slash⟩
  | silent before ended ih =>
    rw [after_silent ended]
    exact ih

/-- Where reading is stuck, the delimiter of a stored unit is not active. -/
theorem ne_slash_of_stuck (stuck : s.Stuck d) : s.context.delimiter ≠ .slash := by
  intro slash
  obtain ⟨c, rest, -, starts⟩ := startsAt_of_stuck stuck
  rw [slash] at starts
  cases starts

/-- Calls leave the script's own delimiter active unless they were cut off. -/
theorem own_or_cutOff {calls : List Call} (own : s.context.delimiter = s.scriptDelimiter)
    (plain : s.dialect.blocks = .oracle → s.dialect.delimiterDirective = false) :
    (s.after calls).context.delimiter = (s.after calls).scriptDelimiter ∨ CutOff s calls := by
  induction calls using List.reverseRecOn with
  | nil => exact Or.inl own
  | append_singleton calls c ih =>
    by_cases reads : (s.after calls).Reads c
    · rcases answer : (s.after calls).answer c with ⟨t, fault | found⟩
      · obtain ⟨v, exhausted, next, rfl⟩ := next_of_answer reads answer
        obtain ⟨u, f, passes, failed | ⟨x, rfl, stuck, rfl, rfl⟩⟩ :=
          passes_of_error (classified_none _) next
        · obtain ⟨active, script⟩ := after_failed reads passes failed
          rcases passes_own passes with same | switched | ⟨apart, delimiter, script'⟩
          · exact Or.inl (by rw [active, script, same])
          · exact Or.inr (.inside reads passes failed switched)
          · rcases ih with same | cut
            · exact Or.inl (by rw [active, script, delimiter, script', same])
            · exact Or.inr (.later cut reads apart failed)
        · have classified := passes_classified passes (classified_none _)
          have other := ne_slash_of_stuck stuck
          have same : v.context.delimiter = v.scriptDelimiter := by
            rcases passes_own passes with same | switched | ⟨apart, delimiter, script⟩
            · exact same
            · exact absurd (slash_of_switched switched classified).2 other
            · rcases ih with same | cut
              · rw [delimiter, script, same]
              · exact absurd (delimiter.trans (cut.slash plain).2) other
          rw [after_one, answer]
          exact Or.inl same
      · rw [after_one, answer]
        exact Or.inl (answer_closed reads answer).2
    · rw [after_silent reads]
      rcases ih with same | cut
      · exact Or.inl same
      · exact Or.inr (.silent cut reads)

/-- The delimiter that a call starts with is the starting one or that of the last directive,
unless the calls before were cut off. Then it is a line with a slash, which may be the script's
own all the same. -/
theorem delimiter_after_calls (v : Vendor) (d : Delimiter) (script : String) (calls : List Call) :
    let s := ofScript v.dialect d script
    let t := s.after calls
    t.scriptDelimiter = (s.settings calls).getLastD d ∧
    (t.context.delimiter = t.scriptDelimiter ↔ d = .slash ∨ ¬ CutOff s calls) ∧
    (t.context.delimiter = t.scriptDelimiter ∨ v = .oracle ∧ t.context.delimiter = .slash) := by
  intro s t
  have plain : s.dialect.blocks = .oracle → s.dialect.delimiterDirective = false :=
    fun grammar => (Vendor.oracle_of_blocks grammar).2
  have own : t.context.delimiter = t.scriptDelimiter ∨ CutOff s calls := own_or_cutOff rfl plain
  refine ⟨after_setting s calls, ?_, ?_⟩
  · by_cases cut : CutOff s calls
    · obtain ⟨grammar, slash⟩ := cut.slash plain
      have script : t.scriptDelimiter = d := after_script (plain grammar) calls
      rw [slash, script]
      constructor
      · intro same
        exact Or.inl same.symm
      · rintro (same | uncut)
        · exact same.symm
        · exact absurd cut uncut
    · exact iff_of_true (own.resolve_right cut) (Or.inr cut)
  · rcases own with same | cut
    · exact Or.inl same
    · obtain ⟨grammar, slash⟩ := cut.slash plain
      exact Or.inr ⟨(Vendor.oracle_of_blocks grammar).1, slash⟩

/-- A block with an `END` too many leaves the slash active, and the two queries after it become
one statement. -/
theorem delimiter_after_underflow :
    let script := "BEGIN NULL; END; END;\nSELECT 1 FROM dual;\nSELECT 2 FROM dual;\n"
    let s := ofScript .oracle .semicolon script
    s.next.2 = .error (.atLine 1 .blockUnderflow) ∧
    (s.after [.next]).scriptDelimiter = .semicolon ∧
    (s.after [.next]).context.delimiter = .slash ∧
    ((s.after [.next]).answer .next).2 = .ok (some
      ⟨1, 20, 61, ";\nSELECT 1 FROM dual;\nSELECT 2 FROM dual;", .slash⟩) := by
  decide +kernel

end Session

end SqlBoundary
