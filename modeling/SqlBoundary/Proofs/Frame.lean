import SqlBoundary.Proofs.Pass

/-!
# What a step keeps

The dialect never changes, the cursor only moves forward, a draft keeps its start, and only
a directive replaces the script's own delimiter. Another delimiter is active only while a
statement is read whose first words ask for it.
-/

namespace SqlBoundary

open Text

namespace Session

variable {s t u : Session} {draft e : Option Draft} {d d' : Draft}

theorem step_frame (h : Step s draft t e) : ∃ n context scriptDelimiter warnings,
    t = { s with cursor := s.cursor.skip n, context, scriptDelimiter, warnings } ∧
      (s.dialect.delimiterDirective = false → scriptDelimiter = s.scriptDelimiter) := by
  cases h with
  | @gap _ _ _ _ n => exact ⟨n, s.context, s.scriptDelimiter, s.warnings, rfl, fun _ => rfl⟩
  | @delimiter _ _ n => exact ⟨n, _, s.scriptDelimiter, s.warnings, rfl, fun _ => rfl⟩
  | @text _ _ _ _ _ n _ _ begun =>
    obtain ⟨kind, rfl⟩ := begin_ok begun
    exact ⟨n, _, s.scriptDelimiter, s.warnings, rfl, fun _ => rfl⟩
  | symbol _ _ begun =>
    obtain ⟨kind, rfl⟩ := begin_ok begun
    rw [countParen_eq]
    exact ⟨1, _, s.scriptDelimiter, s.warnings, rfl, fun _ => rfl⟩
  | @directive _ c rest u d delimiter _ _ begun _ may =>
    obtain ⟨kind, rfl⟩ := begin_ok begun
    simp only [direct, afterWord, skip_cursor, Cursor.skipLine, Cursor.skip_skip]
    refine ⟨_, _, delimiter, s.warnings, rfl, ?_⟩
    intro plain
    simp [mayDirect, plain] at may
  | word _ _ begun _ _ taken =>
    obtain ⟨kind, rfl⟩ := begin_ok begun
    obtain ⟨-, blocks, lastClosed, warnings, rfl⟩ := takeWord_more taken
    rw [classify_eq]
    exact ⟨_, _, s.scriptDelimiter, warnings, rfl, fun _ => rfl⟩

theorem step_dialect (h : Step s draft t e) : t.dialect = s.dialect := by
  obtain ⟨n, context, scriptDelimiter, warnings, rfl, -⟩ := step_frame h
  rfl

theorem step_skip (h : Step s draft t e) : ∃ n, t.cursor = s.cursor.skip n := by
  obtain ⟨n, context, scriptDelimiter, warnings, rfl, -⟩ := step_frame h
  exact ⟨n, rfl⟩

theorem step_exhausted (h : Step s draft t e) : t.exhausted = s.exhausted := by
  obtain ⟨n, context, scriptDelimiter, warnings, rfl, -⟩ := step_frame h
  rfl

theorem step_scriptDelimiter (h : Step s draft t e)
    (plain : s.dialect.delimiterDirective = false) : t.scriptDelimiter = s.scriptDelimiter := by
  obtain ⟨n, context, scriptDelimiter, warnings, rfl, same⟩ := step_frame h
  exact same plain

/-- There is something ahead at every step. -/
theorem step_ahead (h : Step s draft t e) : s.cursor.ahead ≠ [] := by
  intro none
  cases h with
  | gap ahead => simp [none] at ahead
  | delimiter ahead => simp [none] at ahead
  | text ahead => simp [none] at ahead
  | symbol ahead => simp [none] at ahead
  | directive ahead => simp [none] at ahead
  | word ahead => simp [none] at ahead

theorem begin_start (begun : s.begin draft = .ok (u, d)) (same : d'.start = d.start) :
    d'.start = (draft.map (·.start)).getD s.cursor := by
  rw [same]
  rcases begin_eq_ok_iff.mp begun with ⟨rfl, -⟩ | ⟨rfl, -, rfl, -⟩ <;> rfl

/-- A draft starts where its first token does. -/
theorem step_start (h : Step s draft t (some d)) :
    d.start = (draft.map (·.start)).getD s.cursor := by
  generalize held : some d = e at h
  cases h with
  | gap =>
    subst held
    rfl
  | delimiter => cases held
  | text _ _ begun =>
    cases held
    exact begin_start begun rfl
  | symbol _ _ begun =>
    cases held
    exact begin_start begun rfl
  | directive => cases held
  | word _ _ begun _ _ taken =>
    obtain ⟨rfl, -⟩ := takeWord_more taken
    cases held
    exact begin_start begun rfl

/-- A draft begins with a token. -/
theorem step_begins (h : Step s none t (some d)) :
    ∃ c rest, s.cursor.ahead = c :: rest ∧ s.gap? none c = none := by
  generalize none : none = draft, held : some d = e at h
  cases h with
  | gap =>
    subst held
    cases none
  | delimiter => cases held
  | text ahead solid => exact ⟨_, _, ahead, none ▸ solid⟩
  | symbol ahead solid => exact ⟨_, _, ahead, none ▸ solid⟩
  | directive ahead solid => exact ⟨_, _, ahead, none ▸ solid⟩
  | word ahead solid => exact ⟨_, _, ahead, none ▸ solid⟩

/-- That token begins with a character that is not blank. -/
theorem step_solid (h : Step s none t (some d)) :
    ∃ c rest, s.cursor.ahead = c :: rest ∧ isBlank c = false := by
  obtain ⟨c, rest, ahead, solid⟩ := step_begins h
  exact ⟨c, rest, ahead, (gap?_eq_none_iff.mp solid).1⟩

/-- A fault leaves parentheses, blocks, both delimiters and the warnings as they are. -/
theorem failed_frame {fault : Fault} (h : s.pass draft = .failed t fault) :
    ∃ n kind, t = { s with cursor := s.cursor.skip n, context := { s.context with kind } } := by
  cases fails_of_pass h with
  | comment => exact ⟨_, s.context.kind, rfl⟩
  | unclassified => exact ⟨0, s.context.kind, rfl⟩
  | text _ _ begun =>
    obtain ⟨kind, rfl⟩ := begin_ok begun
    exact ⟨_, kind, rfl⟩
  | directive _ _ begun =>
    obtain ⟨kind, rfl⟩ := begin_ok begun
    exact ⟨_, kind, rfl⟩
  | underflow _ _ begun =>
    obtain ⟨kind, rfl⟩ := begin_ok begun
    exact ⟨_, kind, rfl⟩
  | unclosed => exact ⟨0, s.context.kind, rfl⟩

/-- Outside a statement the script's own delimiter is active. Inside, it may be the one that
the first words of the statement ask for. -/
def Owned (s : Session) (draft : Option Draft) : Prop :=
  s.context.delimiter = s.scriptDelimiter ∨
    draft.isSome = true ∧ s.dialect.blocks = .oracle ∧ s.context.delimiter = .slash

theorem owned_of_eq (own : s.Owned draft) (some_ : draft.isSome = true → e.isSome = true)
    (delimiter : t.context.delimiter = s.context.delimiter)
    (script : t.scriptDelimiter = s.scriptDelimiter) (dialect : t.dialect = s.dialect) :
    t.Owned e := by
  rcases own with own | ⟨held, grammar, slash⟩
  · exact Or.inl (by rw [delimiter, script, own])
  · exact Or.inr ⟨some_ held, by rw [dialect, grammar], by rw [delimiter, slash]⟩

theorem owned_begin (own : s.Owned draft) (begun : s.begin draft = .ok (u, d)) :
    u.Owned (some d') := by
  obtain ⟨kind, rfl⟩ := begin_ok begun
  exact owned_of_eq own (fun _ => rfl) rfl rfl rfl

theorem statementDelimiter?_eq_some {grammar : BlockGrammar} {leading : List String}
    {x : Delimiter} (h : grammar.statementDelimiter? leading = some x) :
    grammar = .oracle ∧ x = .slash := by
  cases grammar with
  | common => cases h
  | mysql => cases h
  | oracle =>
    simp only [BlockGrammar.statementDelimiter?] at h
    split at h
    · exact ⟨rfl, (Option.some.inj h).symm⟩
    · cases h

theorem asks_eq_some {grammar : BlockGrammar} {text : String} {x : Delimiter}
    (h : d.asks grammar text = some x) : grammar = .oracle ∧ x = .slash := by
  rw [Draft.asks] at h
  split at h
  · exact statementDelimiter?_eq_some h
  · cases h

theorem step_owned (h : Step s draft t e) (own : s.Owned draft) : t.Owned e := by
  cases h with
  | gap => exact own
  | delimiter => exact Or.inl rfl
  | @text _ c rest u d n _ _ begun =>
    have begins : u.Owned (some d) := owned_begin own begun
    exact owned_of_eq begins id rfl rfl rfl
  | @symbol _ c rest u d _ _ begun =>
    have begins : u.Owned (some d) := owned_begin own begun
    rw [countParen_eq]
    exact owned_of_eq begins id rfl rfl rfl
  | directive => exact Or.inl rfl
  | @word _ _ c rest u _ d _ _ begun _ _ taken =>
    have begins : u.Owned (some d) := owned_begin own begun
    obtain ⟨rfl, blocks, lastClosed, warnings, rfl⟩ := takeWord_more taken
    rw [classify_eq]
    dsimp only
    cases asked : d.asks u.afterWord.dialect.blocks u.wordText with
    | none => exact owned_of_eq begins id rfl rfl rfl
    | some x =>
      obtain ⟨grammar, rfl⟩ := asks_eq_some asked
      exact Or.inr ⟨rfl, grammar, rfl⟩

end Session

end SqlBoundary
