import SqlBoundary.Proofs.Counter
import SqlBoundary.Proofs.Parallel

/-!
# Where a run is

A run over a whole script goes through states: what has been read, the draft, and the statements
found so far. Every statement of a script is found in one of them, and its draft was begun in
another, with no block and no parenthesis open.
-/

namespace SqlBoundary

open Text

/-- The states of a run over the script, with the statements found so far. -/
inductive Visits (dialect : Dialect) (d : Delimiter) (script : String) :
    Session → Option Draft → List Statement → Prop
  | start : Visits dialect d script (.ofScript dialect d script) none []
  | step {s t : Session} {draft e : Option Draft} {found : List Statement}
      (before : Visits dialect d script s draft found) (step : s.Step draft t e) :
      Visits dialect d script t e found
  | found {s t : Session} {draft : Option Draft} {found : List Statement} {statement : Statement}
      (before : Visits dialect d script s draft found)
      (pass : s.pass draft = .found t statement) :
      Visits dialect d script t none (found ++ [statement])

namespace Session

variable {s t u : Session} {draft e f : Option Draft} {x : Draft} {found : List Statement}
variable {dialect : Dialect} {d : Delimiter} {script : String}

/-- What a run over a script of a standard dialect keeps. -/
structure Steady (dialect : Dialect) (d : Delimiter) (s : Session) (draft : Option Draft) :
    Prop where
  dialect : s.dialect = dialect
  live : s.exhausted = false
  delimiter : s.context.delimiter = d
  script : s.scriptDelimiter = d
  classified : s.Classified draft

theorem step_steady (std : dialect.Standard) (h : Step s draft t e)
    (hs : Steady dialect d s draft) :
    Steady dialect d t e := by
  have plain : s.dialect.delimiterDirective = false := hs.dialect ▸ std.directive
  have same : t.scriptDelimiter = d := (step_scriptDelimiter h plain).trans hs.script
  have dialect' : t.dialect = dialect := (step_dialect h).trans hs.dialect
  refine ⟨dialect', (step_exhausted h).trans hs.live, ?_, same, step_classified h hs.classified⟩
  have own : s.Owned draft := Or.inl (hs.delimiter.trans hs.script.symm)
  rcases step_owned h own with own | ⟨-, grammar, -⟩
  · exact own.trans same
  · rw [dialect', std.blocks] at grammar
    cases grammar

theorem found_steady {statement : Statement} (h : s.pass draft = .found t statement)
    (hs : Steady dialect d s draft) : Steady dialect d t none := by
  obtain ⟨n, rfl⟩ := restored_of_found h
  exact ⟨hs.dialect, hs.live, hs.script, hs.script, classified_none _⟩

theorem visits_steady (std : dialect.Standard) (h : Visits dialect d script s draft found) :
    Steady dialect d s draft := by
  induction h with
  | start => exact ⟨rfl, rfl, rfl, rfl, classified_none _⟩
  | step _ step ih => exact step_steady std step ih
  | found _ pass ih => exact found_steady pass ih

/-- The statements of the script are those found so far and those still to come. -/
theorem splitFrom_of_visits (std : dialect.Standard) (h : Visits dialect d script s draft found) :
    splitFrom dialect d script = (s.onward draft).map (found ++ ·) := by
  induction h with
  | start =>
    rw [onward_none rfl, splitFrom]
    cases (ofScript dialect d script).remaining.2 <;> rfl
  | step before step ih =>
    have steady := visits_steady std before
    rw [ih, onward, onward, read_of_more steady.classified (pass_of_step step)]
  | @found s t draft found statement before pass ih =>
    have steady := visits_steady std (.found before pass)
    have answer : s.read draft = (t, .ok (some statement)) := read_of_answer (by rw [pass]; rfl)
    rw [ih, onward_none steady.live, onward, answer]
    dsimp only
    cases t.remaining.2 with
    | error fault => rfl
    | ok later => simp [Except.map]

/-- The session has come to the place between these parts of the script. -/
structure Between (script : String) (before ahead : List Char) (s : Session) : Prop where
  whole : script.toList = before ++ ahead
  place : s.cursor = .between before ahead

theorem Between.ahead_eq {before ahead : List Char} (here : s.Between script before ahead) :
    s.cursor.ahead = ahead := by
  rw [here.place]
  rfl

/-- To give a statement its kind moves nothing. -/
theorem Between.begin {before ahead : List Char} (here : s.Between script before ahead)
    (begun : s.begin draft = .ok (u, x)) : u.Between script before ahead := by
  obtain ⟨kind, rfl⟩ := begin_ok begun
  exact ⟨here.whole, here.place⟩

theorem visits_place (h : Visits dialect d script s draft found) :
    ∃ passed, script.toList = passed ++ s.cursor.ahead ∧
      s.cursor = .between passed s.cursor.ahead := by
  induction h with
  | start => exact ⟨[], rfl, rfl⟩
  | step _ step ih =>
    obtain ⟨passed, whole, place⟩ := ih
    obtain ⟨piece, split, moved⟩ := step_cut step
    exact ⟨passed ++ piece, by rw [whole, split, List.append_assoc], moved place⟩
  | @found s t draft found statement before pass ih =>
    obtain ⟨passed, whole, place⟩ := ih
    obtain ⟨-, -, -, closing, split, idle, -⟩ := closing_of_found pass place
    exact ⟨passed ++ closing, by rw [whole, split, List.append_assoc], idle.place⟩

theorem visits_dialect (h : Visits dialect d script s draft found) : s.dialect = dialect := by
  induction h with
  | start => rfl
  | step _ step ih => rw [step_dialect step, ih]
  | found _ pass ih =>
    obtain ⟨n, rfl⟩ := restored_of_found pass
    exact ih

theorem visits_between (h : Visits dialect d script s draft found) :
    ∃ before, s.Between script before s.cursor.ahead := by
  obtain ⟨before, whole, place⟩ := visits_place h
  exact ⟨before, whole, place⟩

theorem visits_passes (h : Visits dialect d script s draft found) (passes : Passes s draft u f) :
    Visits dialect d script u f found := by
  induction passes with
  | refl => exact h
  | step first _ ih => exact ih (.step h first)

/-- Every statement of a script is found by some pass. -/
theorem visits_of_mem {later : List Statement} {statement : Statement} (std : dialect.Standard)
    (h : Visits dialect d script s none found) (rest : s.remaining.2 = .ok later)
    (mem : statement ∈ later) :
    ∃ u f before t, Visits dialect d script u f before ∧ u.pass f = .found t statement := by
  induction later generalizing s found with
  | nil => cases mem
  | cons first later ih =>
    have live := (visits_steady std h).live
    rcases remaining_ok_cases live rest with ⟨none, -⟩ | ⟨t, _, _, same, next, more⟩
    · cases none
    · cases same
      obtain ⟨u, f, passes, pass⟩ := passes_of_found next
      have here := visits_passes h passes
      rcases List.mem_cons.mp mem with rfl | mem
      · exact ⟨u, f, found, t, here, pass⟩
      · exact ih (.found here pass) more mem

/-- A draft was begun by the step that read its first token, and starts where that was. -/
theorem visits_begun (h : Visits dialect d script u (some x) found) :
    ∃ s t y before, Visits dialect d script s none before ∧ Step s none t (some y) ∧
      Passes t (some y) u (some x) ∧ x.start = s.cursor := by
  generalize held : some x = f at h
  induction h generalizing x with
  | start => cases held
  | @step s t draft e found before step ih =>
    subst held
    have kept := step_start step
    cases draft with
    | none => exact ⟨s, t, x, found, before, step, .refl t (some x), kept⟩
    | some y =>
      obtain ⟨s₀, t₀, y₀, before₀, visits, first, passes, start⟩ := ih rfl
      exact ⟨s₀, t₀, y₀, before₀, visits, first,
        passes_trans passes (.step step (.refl t (some x))), kept.trans start⟩
  | found => cases held

/-- Between statements a step changes nothing that is open. -/
theorem step_between (plain : s.dialect.delimiterDirective = false) (h : Step s draft t none) :
    draft = none ∧ t.context.parens = s.context.parens ∧ t.context.blocks = s.context.blocks := by
  cases draft with
  | some x =>
    rw [directive_of_step h] at plain
    cases plain
  | none =>
    refine ⟨rfl, ?_⟩
    generalize none : (none : Option Draft) = e at h
    cases h with
    | gap => exact ⟨rfl, rfl⟩
    | delimiter => exact ⟨rfl, rfl⟩
    | text => cases none
    | symbol => cases none
    | directive _ _ begun _ may =>
      obtain ⟨kind, rfl⟩ := begin_ok begun
      simp [mayDirect, plain] at may
    | word _ _ _ _ _ taken =>
      obtain ⟨rfl, -⟩ := takeWord_more taken
      cases none

theorem visits_fits (fit : ParensFit script.toList) (h : Visits dialect d script s draft found) :
    s.Fits := by
  induction h with
  | start => exact fits_ofScript dialect d fit
  | step _ step ih => exact step_fits step ih
  | found _ pass ih =>
    obtain ⟨n, rfl⟩ := restored_of_found pass
    exact ih.skip rfl rfl

/-- Between statements no block is open, and no parenthesis, if the delimiter is an inline one
and the script goes on. -/
theorem visits_outside (std : dialect.Standard) (inline : d.aloneOnLine = false)
    (fit : ParensFit script.toList) (h : Visits dialect d script s none found) :
    s.context.blocks = [] ∧ (s.context.parens = 0 ∨ s.cursor.ahead = []) := by
  generalize between : (none : Option Draft) = draft at h
  induction h with
  | start => exact ⟨rfl, Or.inl rfl⟩
  | @step s t draft e found before step ih =>
    subst between
    have steady := visits_steady std before
    obtain ⟨rfl, parens, blocks⟩ := step_between (steady.dialect ▸ std.directive) step
    obtain ⟨closed, level | ended⟩ := ih rfl
    · exact ⟨blocks.trans closed, Or.inl (parens.trans level)⟩
    · exact absurd ended (step_ahead step)
  | @found s t draft found statement before pass ih =>
    have steady := visits_steady std before
    obtain ⟨x, -, -, ⟨_, _, n, -, gap, rfl⟩ | ⟨ended, closed, rfl⟩⟩ := pass_found pass
    · obtain ⟨closed, ⟨alone, -⟩ | ⟨level, -⟩⟩ :=
        delimiterLength?_eq_some (delimiter_of_gap? gap).2
      · rw [steady.delimiter, inline] at alone
        cases alone
      · exact ⟨closed, Or.inl (Int32.le_antisymm level (visits_fits fit before).floor)⟩
    · exact ⟨closed, Or.inr ended⟩

/-- The state after the pass. -/
def succ? (s : Session) (draft : Option Draft) : Option (Session × Option Draft) :=
  match s.pass draft with
  | .more t e => some (t, e)
  | .found t _ => some (t, none)
  | .finished _ => none
  | .failed _ _ => none

/-- At most `n` states, from here on. -/
def trail : Nat → Session → Option Draft → List (Session × Option Draft)
  | 0, _, _ => []
  | n + 1, s, draft =>
    (s, draft) :: match s.succ? draft with
      | some (t, e) => trail n t e
      | none => []

theorem trail_of_succ {all passed : List (Session × Option Draft)} {n : Nat}
    (listed : all = passed ++ trail n s draft) (next : s.succ? draft = some (t, e)) :
    ∃ passed' m, all = passed' ++ trail m t e ∧ passed'.length + m = passed.length + n := by
  cases n with
  | zero => exact ⟨passed, 0, listed, rfl⟩
  | succ m =>
    rw [trail, next] at listed
    refine ⟨passed ++ [(s, draft)], m, by rw [listed, List.append_assoc]; rfl, ?_⟩
    rw [List.length_append, List.length_singleton, Nat.add_assoc, Nat.add_comm 1]

theorem trail_of_visits (n : Nat) (h : Visits dialect d script s draft found) :
    ∃ passed m, trail n (.ofScript dialect d script) none = passed ++ trail m s draft ∧
      passed.length + m = n := by
  induction h with
  | start => exact ⟨[], n, rfl, Nat.zero_add n⟩
  | step _ step ih =>
    obtain ⟨passed, m, listed, length⟩ := ih
    obtain ⟨passed', m', listed', same⟩ :=
      trail_of_succ listed (by rw [succ?, pass_of_step step])
    exact ⟨passed', m', listed', same.trans length⟩
  | found _ pass ih =>
    obtain ⟨passed, m, listed, length⟩ := ih
    obtain ⟨passed', m', listed', same⟩ := trail_of_succ listed (by rw [succ?, pass])
    exact ⟨passed', m', listed', same.trans length⟩

/-- A list that ends before its bound has every state of the run. -/
theorem mem_trail {n : Nat} (ends : (trail n (.ofScript dialect d script) none).length < n)
    (h : Visits dialect d script s draft found) :
    (s, draft) ∈ trail n (.ofScript dialect d script) none := by
  obtain ⟨passed, m, listed, length⟩ := trail_of_visits n h
  cases m with
  | zero =>
    rw [listed, List.length_append] at ends
    omega
  | succ m =>
    rw [listed]
    exact List.mem_append_right passed List.mem_cons_self

end Session

end SqlBoundary
