import SqlBoundary.Proofs.CutOff
import SqlBoundary.Proofs.Filler
import SqlBoundary.Proofs.Members
import SqlBoundary.Proofs.Visits

/-!
# Which statements are units

An anonymous block and a stored unit of Oracle are ended by a line with a slash. A statement is
told to be one word by word, and once it is, the active delimiter changes under it. The first
eight words of the whole statement say the same as this: a word more never takes back what the
words before it say, and where they say nothing the delimiter is still that of the script.
-/

namespace SqlBoundary

/-- The first words of an anonymous block, or of the definition of a stored unit. -/
def BeginsUnit (words : List String) : Prop :=
  words.head? = some "DECLARE" ∨ words.head? = some "BEGIN" ∨
    words.head? = some "CREATE" ∧ ∃ before kind after, words = before ++ kind :: after ∧
      (∀ word ∈ before,
        word ∈ ["CREATE", "OR", "REPLACE", "EDITIONABLE", "NONEDITIONABLE"]) ∧
      kind ∈ ["FUNCTION", "PROCEDURE", "PACKAGE", "TRIGGER", "TYPE", "LIBRARY"]

theorem isUnit_create (rest : List String) :
    BlockGrammar.isUnit ("CREATE" :: rest) = true ↔
      ∃ before kind after, "CREATE" :: rest = before ++ kind :: after ∧
        (∀ word ∈ before, word ∈ BlockGrammar.createModifiers) ∧
        kind ∈ BlockGrammar.unitWords := by
  have apart : ∀ kind ∈ BlockGrammar.unitWords, kind ∉ BlockGrammar.createModifiers := by decide
  simp only [BlockGrammar.isUnit]
  constructor
  · intro unit
    split at unit
    · next kind found =>
      obtain ⟨-, before, after, split, modifiers⟩ := List.find?_eq_some_iff_append.mp found
      exact ⟨before, kind, after, split, by simpa using modifiers, by simpa using unit⟩
    · cases unit
  · rintro ⟨before, kind, after, split, modifiers, kinds⟩
    have found : ("CREATE" :: rest).find? (!BlockGrammar.createModifiers.contains ·) = some kind :=
      List.find?_eq_some_iff_append.mpr
        ⟨by simpa using apart kind kinds, before, after, split, by simpa using modifiers⟩
    rw [found]
    simpa using kinds

theorem isUnit_iff (words : List String) :
    BlockGrammar.isUnit words = true ↔ BeginsUnit words := by
  cases words with
  | nil => simp [BlockGrammar.isUnit, BeginsUnit]
  | cons first rest =>
    by_cases declare : first = "DECLARE"
    · subst declare
      exact ⟨fun _ => Or.inl rfl, fun _ => rfl⟩
    by_cases begin : first = "BEGIN"
    · subst begin
      exact ⟨fun _ => Or.inr (Or.inl rfl), fun _ => rfl⟩
    by_cases create : first = "CREATE"
    · subst create
      rw [isUnit_create]
      simp [BeginsUnit, BlockGrammar.createModifiers, BlockGrammar.unitWords]
    · simp [BlockGrammar.isUnit, BeginsUnit, declare, begin, create]

instance (words : List String) : Decidable (BeginsUnit words) :=
  decidable_of_iff _ (isUnit_iff words)

namespace Session

variable {s t u : Session} {draft e f : Option Draft} {d x : Draft} {items : List Item}
variable {dialect : Dialect} {delimiter : Delimiter} {script : String}

/-- As long as the first words ask for no delimiter, that of the script is active. -/
def Unasked (s : Session) (draft : Option Draft) : Prop :=
  (∀ d ∈ draft, s.dialect.blocks.statementDelimiter? d.leading = none) →
    s.context.delimiter = s.scriptDelimiter

theorem unasked_begin (h : s.Unasked draft) (begun : s.begin draft = .ok (u, d)) :
    u.Unasked (some d) := by
  rcases begin_eq_ok_iff.mp begun with ⟨rfl, rfl⟩ | ⟨rfl, -, rfl, rfl⟩
  · exact h
  · exact fun _ => h (by rintro d ⟨⟩)

theorem unasked_of_eq (h : s.Unasked (some d)) (leading : x.leading = d.leading)
    (dialect : t.dialect = s.dialect) (active : t.context.delimiter = s.context.delimiter)
    (script : t.scriptDelimiter = s.scriptDelimiter) : t.Unasked (some x) := by
  intro none
  rw [active, script]
  refine h fun y hy => ?_
  cases hy
  rw [← leading, ← dialect]
  exact none x rfl

theorem step_unasked (h : Step s draft t e) (hs : s.Unasked draft) : t.Unasked e := by
  cases h with
  | gap => exact hs
  | delimiter => exact fun _ => rfl
  | text _ _ begun => exact unasked_of_eq (unasked_begin hs begun) rfl rfl rfl rfl
  | symbol _ _ begun =>
    rw [countParen_eq]
    exact unasked_of_eq (unasked_begin hs begun) rfl rfl rfl rfl
  | directive => exact fun _ => rfl
  | @word _ _ c rest u _ d _ _ begun _ _ taken =>
    have begins := unasked_begin hs begun
    obtain ⟨rfl, blocks, lastClosed, warnings, rfl⟩ := takeWord_more taken
    rw [classify_eq]
    intro none
    have asks := none _ rfl
    simp only [Draft.afterWord] at asks
    change (d.asks u.dialect.blocks u.wordText).getD u.context.delimiter = u.scriptDelimiter
    change u.dialect.blocks.statementDelimiter? _ = _ at asks
    by_cases few : d.leading.length < Draft.leadingWords
    · rw [if_pos few] at asks
      rw [Draft.asks, if_pos few, asks]
      refine begins fun y hy => ?_
      cases hy
      cases before : u.dialect.blocks.statementDelimiter? d.leading with
      | none => rfl
      | some y =>
        have more := statementDelimiter?_more (by rw [before]; rfl) u.wordText
        rw [asks] at more
        cases more
    · rw [if_neg few] at asks
      rw [Draft.asks, if_neg few]
      exact begins fun y hy => by cases hy; exact asks

/-- Then the active delimiter is told by the first words of the draft. -/
theorem active_eq (classified : s.Classified draft) (unasked : s.Unasked draft) :
    s.context.delimiter =
      (draft.bind fun d => s.dialect.blocks.statementDelimiter? d.leading).getD
        s.scriptDelimiter := by
  cases draft with
  | none => exact unasked (by rintro d ⟨⟩)
  | some d =>
    rw [Option.bind_some]
    cases asks : s.dialect.blocks.statementDelimiter? d.leading with
    | none => exact unasked (by rintro y ⟨⟩; exact asks)
    | some y => exact classified d rfl y asks

theorem visits_asked {found : List Statement} (plain : dialect.delimiterDirective = false)
    (h : Visits dialect delimiter script s draft found) :
    s.scriptDelimiter = delimiter ∧ s.Classified draft ∧ s.Unasked draft := by
  induction h with
  | start => exact ⟨rfl, classified_none _, fun _ => rfl⟩
  | step before step ih =>
    obtain ⟨same, classified, unasked⟩ := ih
    have directs := step_scriptDelimiter step (visits_dialect before ▸ plain)
    exact ⟨directs.trans same, step_classified step classified, step_unasked step unasked⟩
  | found _ pass ih =>
    obtain ⟨n, rfl⟩ := restored_of_found pass
    exact ⟨ih.1, classified_none _, fun _ => rfl⟩

theorem visits_live {found : List Statement} (h : Visits dialect delimiter script s draft found) :
    s.exhausted = false := by
  induction h with
  | start => rfl
  | step _ step ih => exact (step_exhausted step).trans ih
  | found _ pass ih =>
    obtain ⟨n, rfl⟩ := restored_of_found pass
    exact ih

theorem reached_passes (h : Reached dialect delimiter script s draft items)
    (passes : Passes s draft u f) : ∃ items, Reached dialect delimiter script u f items := by
  induction passes generalizing items with
  | refl => exact ⟨items, h⟩
  | @step s t u draft e f first _ ih =>
    cases e with
    | none => exact ih (.outside h (pass_of_step first))
    | some d => exact ih (.more h (pass_of_step first))

/-- Each statement of a script is found by a pass of the run, with those before it found before,
and with the tokens that have been read of it. -/
theorem found_of_remaining {found before after later : List Statement} {statement : Statement}
    (h : Visits dialect delimiter script s none found)
    (reached : Reached dialect delimiter script s none []) (rest : s.remaining.2 = .ok later)
    (here : later = before ++ statement :: after) :
    ∃ u f items t, Visits dialect delimiter script u f (found ++ before) ∧
      Reached dialect delimiter script u f items ∧ u.pass f = .found t statement := by
  induction before generalizing s found later with
  | nil =>
    subst here
    rcases remaining_ok_cases (visits_live h) rest with ⟨none, -⟩ | ⟨t, x, more, same, next, -⟩
    · cases none
    · cases same
      obtain ⟨u, f, passes, pass⟩ := passes_of_found next
      obtain ⟨items, comes⟩ := reached_passes reached passes
      exact ⟨u, f, items, t, by simpa using visits_passes h passes, comes, pass⟩
  | cons first before ih =>
    subst here
    rcases remaining_ok_cases (visits_live h) rest with ⟨none, -⟩ | ⟨t, x, more, same, next, tail⟩
    · cases none
    · cases same
      obtain ⟨u, f, passes, pass⟩ := passes_of_found next
      obtain ⟨items, comes⟩ := reached_passes reached passes
      have again : Reached dialect delimiter script t none [] :=
        .again (.ok (some first)) t.exhausted comes (by rw [pass]; rfl)
      have ends := ih (.found (visits_passes h passes) pass) again tail rfl
      simpa using ends

end Session

open Session

/-- The place where a unit ends: outside of all blocks, at the end of the script or before a line
with a slash. -/
def EndsUnit (script : String) (s : Session) : Prop :=
  s.context.blocks = [] ∧ (s.cursor.ahead = [] ∨
    ∃ before line after, script.toList = before ++ line ++ after ∧
      s.cursor = .between before (line ++ after) ∧ FillsLine .slash before line after)

theorem endsUnit_of_found {s t : Session} {draft : Option Draft} {statement : Statement}
    {dialect : Dialect} {delimiter : Delimiter} {script : String} {found : List Statement}
    (visits : Visits dialect delimiter script s draft found)
    (pass : s.pass draft = .found t statement) (slash : s.context.delimiter = .slash) :
    EndsUnit script s := by
  obtain ⟨before, whole, place⟩ := visits_place visits
  obtain ⟨d, -, -, ⟨c, rest, n, -, gap, -⟩ | ⟨ended, closed, -⟩⟩ := pass_found pass
  · obtain ⟨closed, ⟨-, line, -⟩ | ⟨-, starts, -⟩⟩ :=
      delimiterLength?_eq_some (delimiter_of_gap? gap).2
    · rw [slash, place] at line
      refine ⟨closed, Or.inr ⟨before, _, _, ?_, ?_, fillsLine_of_atLineOf line⟩⟩
      · rw [List.append_assoc, List.take_append_drop]
        exact whole
      · rw [List.take_append_drop]
        exact place
    · rw [slash] at starts
      simp [Delimiter.startsAt, Delimiter.slash, Delimiter.alone] at starts
  · exact ⟨closed, Or.inl ended⟩

/-- What a statement of Oracle is ended by is told by the first eight words read of it, wherever
it stands in the script: a unit by a line with a slash outside of all blocks or by the end of the
script, with that line as its delimiter, and any other statement by the starting delimiter. -/
theorem splitFrom_units (delimiter : Delimiter) (script : String) (statements : List Statement)
    (ok : splitFrom .oracle delimiter script = .ok statements) :
    ∀ before statement after, statements = before ++ statement :: after →
      ∃ s d items t, Visits .oracle delimiter script s (some d) before ∧
        Reached .oracle delimiter script s (some d) items ∧
        s.pass (some d) = .found t statement ∧
        statement.delimiter =
          (if BeginsUnit (firstWords items) then .slash else delimiter) ∧
        (BeginsUnit (firstWords items) → EndsUnit script s) := by
  intro before statement after here
  obtain ⟨s, draft, items, t, visits, reached, pass⟩ :=
    found_of_remaining (.start) (.start) ok here
  obtain ⟨d, rfl, rfl, -⟩ := pass_found pass
  obtain ⟨same, classified, unasked⟩ := visits_asked rfl visits
  have leading : d.leading = firstWords items := tracks_leading.told_of_reached reached
  have active := active_eq classified unasked
  rw [visits_dialect visits, same, Option.bind_some, leading] at active
  have delimiter_eq : s.context.delimiter =
      if BeginsUnit (firstWords items) then .slash else delimiter := by
    by_cases unit : BeginsUnit (firstWords items)
    · have asks := (isUnit_iff _).mpr unit
      rw [if_pos unit, active]
      simp [Dialect.oracle, BlockGrammar.statementDelimiter?, asks]
    · have asks := mt (isUnit_iff _).mp unit
      rw [if_neg unit, active]
      simp [Dialect.oracle, BlockGrammar.statementDelimiter?, asks]
  refine ⟨s, d, items, t, by simpa using visits, reached, pass, delimiter_eq, fun unit => ?_⟩
  rw [if_pos unit] at delimiter_eq
  exact endsUnit_of_found visits pass delimiter_eq

/-- A procedure between two plain statements. -/
theorem splitFrom_units_procedure :
    let script := "CREATE TABLE t (x int);\nCREATE OR REPLACE PROCEDURE p AS BEGIN x; END;\n/\n" ++
      "SELECT 1 FROM t;"
    let procedure : Statement :=
      ⟨2, 24, 70, "CREATE OR REPLACE PROCEDURE p AS BEGIN x; END;", .slash⟩
    ∃ table query, splitFrom .oracle .semicolon script = .ok [table, procedure, query] ∧
      ∃ s d items t, Visits .oracle .semicolon script s (some d) [table] ∧
        Reached .oracle .semicolon script s (some d) items ∧
        s.pass (some d) = .found t procedure ∧
        procedure.delimiter =
          (if BeginsUnit (firstWords items) then .slash else .semicolon) ∧
        (BeginsUnit (firstWords items) → EndsUnit script s) := by
  intro script procedure
  have ok : splitFrom .oracle .semicolon script =
      .ok [⟨1, 0, 22, "CREATE TABLE t (x int)", .semicolon⟩, procedure,
        ⟨4, 73, 88, "SELECT 1 FROM t", .semicolon⟩] := by
    decide +kernel
  exact ⟨_, _, ok, splitFrom_units .semicolon script _ ok [_] procedure [_] rfl⟩

end SqlBoundary
