import SqlBoundary.Proofs.Progress

/-!
# Reading without a bound

`run` and `gather` count down the characters ahead. The bound never decides: `read_of_more`
and `remaining_of_found` say what a pass, or the next statement, leads to, and mention none.
Passes that follow one another are collected in `Passes`, along which invariants are carried
by induction.
-/

namespace SqlBoundary

open Text

/-- The session and the answer that this pass leads to. -/
def Pass.answer? : Pass → Option (Session × Except Fault (Option Statement))
  | .more _ _ => none
  | .found s statement => some (s, .ok (some statement))
  | .finished s => some (s, .ok none)
  | .failed s fault => some (s, .error fault)

theorem Pass.more_of_answer? {pass : Pass} (h : pass.answer? = none) :
    ∃ t e, pass = .more t e := by
  cases pass with
  | more t e => exact ⟨t, e, rfl⟩
  | found => cases h
  | finished => cases h
  | failed => cases h

namespace Session

variable {s t u : Session} {draft e f : Option Draft} {d : Draft}

/-- Reading on with a draft, until a pass decides. -/
def read (s : Session) (draft : Option Draft) : Session × Except Fault (Option Statement) :=
  run s.cursor.ahead s draft

theorem run_of_answer {bound : List Char} {r : Session × Except Fault (Option Statement)}
    (h : (s.pass draft).answer? = some r) : run bound s draft = r := by
  unfold run
  split <;> simp_all [Pass.answer?]

theorem run_of_more {bound : List Char} (x : Char) (h : s.pass draft = .more t e) :
    run (x :: bound) s draft = run bound t e := by
  rw [run, h]

theorem run_stuck (bound : List Char) (stuck : s.Stuck d) (hc : s.Classified (some d)) :
    run bound s (some d) = (s, .error (.stalled s.line)) := by
  have same := pass_of_stuck stuck hc
  induction bound generalizing d with
  | nil => rw [run, same]
  | cons x bound ih =>
    have later := step_classified (step_of_pass same) hc
    rw [run_of_more x same]
    exact ih (stuck_any stuck _) later (pass_of_stuck (stuck_any stuck _) later)

/-- Any two bounds that cover the text ahead are as good as each other. -/
theorem run_bound (a b : List Char) (hc : s.Classified draft)
    (ha : s.cursor.ahead.length ≤ a.length) (hb : s.cursor.ahead.length ≤ b.length) :
    run a s draft = run b s draft := by
  induction a generalizing s draft b with
  | nil =>
    have ahead : s.cursor.ahead = [] := List.length_eq_zero_iff.mp (by simpa using ha)
    cases answer : (s.pass draft).answer? with
    | some r => rw [run_of_answer answer, run_of_answer answer]
    | none =>
      obtain ⟨t, e, hp⟩ := Pass.more_of_answer? answer
      exact absurd ahead (step_ahead (step_of_pass hp))
  | cons x a ih =>
    cases answer : (s.pass draft).answer? with
    | some r => rw [run_of_answer answer, run_of_answer answer]
    | none =>
      obtain ⟨t, e, hp⟩ := Pass.more_of_answer? answer
      have step := step_of_pass hp
      have later := step_classified step hc
      cases b with
      | nil =>
        have ahead : s.cursor.ahead = [] := List.length_eq_zero_iff.mp (by simpa using hb)
        exact absurd ahead (step_ahead step)
      | cons y b =>
        rw [run_of_more x hp, run_of_more y hp]
        rcases step_advances step hc with shorter | ⟨d, rfl, stuck⟩
        · simp only [List.length_cons] at ha hb
          exact ih b later (by omega) (by omega)
        · rw [run_stuck a stuck later, run_stuck b stuck later]

theorem run_eq_read {bound : List Char} (hc : s.Classified draft)
    (h : s.cursor.ahead.length ≤ bound.length) : run bound s draft = s.read draft :=
  run_bound bound s.cursor.ahead hc h (Nat.le_refl _)

theorem read_of_answer {r : Session × Except Fault (Option Statement)}
    (h : (s.pass draft).answer? = some r) : s.read draft = r :=
  run_of_answer h

theorem read_of_more (hc : s.Classified draft) (h : s.pass draft = .more t e) :
    s.read draft = t.read e := by
  have step := step_of_pass h
  have later := step_classified step hc
  cases ahead : s.cursor.ahead with
  | nil => exact absurd ahead (step_ahead step)
  | cons x rest =>
    rw [read, ahead, run_of_more x h]
    rcases step_advances step hc with shorter | ⟨d, rfl, stuck⟩
    · rw [ahead, List.length_cons] at shorter
      exact run_eq_read later (by omega)
    · rw [read, run_stuck rest stuck later, run_stuck _ stuck later]

/-- Passes that lead from one state of reading to another. -/
inductive Passes : Session → Option Draft → Session → Option Draft → Prop
  | refl (s : Session) (draft : Option Draft) : Passes s draft s draft
  | step {s t u : Session} {draft e f : Option Draft}
      (first : Step s draft t e) (rest : Passes t e u f) : Passes s draft u f

theorem passes_trans (h : Passes s draft t e) (later : Passes t e u f) : Passes s draft u f := by
  induction h with
  | refl => exact later
  | step first _ ih => exact .step first (ih later)

theorem passes_blanks {gap rest : List Char} (blank : ∀ c ∈ gap, isBlank c = true)
    (ahead : s.cursor.ahead = gap ++ rest) : Passes s draft (s.skip gap.length) draft := by
  induction gap generalizing s with
  | nil => exact .refl s draft
  | cons c gap ih =>
    have here : s.gap? draft c = some .blank := by
      simp only [gap?, blank c List.mem_cons_self, if_true]
    have step : Step s draft (s.skip 1) draft := .gap ahead here rfl
    have rest : (s.skip 1).cursor.ahead = gap ++ rest := by
      rw [skip_cursor, Cursor.skip_ahead, ahead]
      rfl
    have later := ih (fun x mem => blank x (List.mem_cons_of_mem c mem)) rest
    exact .step step later

theorem passes_classified (h : Passes s draft u f) (hc : s.Classified draft) :
    u.Classified f := by
  induction h with
  | refl => exact hc
  | step first _ ih => exact ih (step_classified first hc)

theorem read_of_passes (h : Passes s draft u f) (hc : s.Classified draft) :
    s.read draft = u.read f := by
  induction h with
  | refl => rfl
  | step first _ ih =>
    rw [read_of_more hc (pass_of_step first)]
    exact ih (step_classified first hc)

theorem passes_of_run {bound : List Char} {r : Except Fault (Option Statement)}
    (h : run bound s draft = (t, r)) :
    ∃ u f, Passes s draft u f ∧
      ((u.pass f).answer? = some (t, r) ∨ (t, r) = (u, .error (.stalled u.line))) := by
  induction bound generalizing s draft with
  | nil =>
    cases answer : (s.pass draft).answer? with
    | some x =>
      rw [run_of_answer answer] at h
      exact ⟨s, draft, .refl s draft, Or.inl (by rw [answer, h])⟩
    | none =>
      obtain ⟨u, f, hp⟩ := Pass.more_of_answer? answer
      rw [run, hp] at h
      exact ⟨u, f, .step (step_of_pass hp) (.refl u f), Or.inr h.symm⟩
  | cons x bound ih =>
    cases answer : (s.pass draft).answer? with
    | some x =>
      rw [run_of_answer answer] at h
      exact ⟨s, draft, .refl s draft, Or.inl (by rw [answer, h])⟩
    | none =>
      obtain ⟨v, e, hp⟩ := Pass.more_of_answer? answer
      rw [run_of_more x hp] at h
      obtain ⟨u, f, passes, final⟩ := ih h
      exact ⟨u, f, .step (step_of_pass hp) passes, final⟩

theorem passes_of_found {statement : Statement} (h : s.read draft = (t, .ok (some statement))) :
    ∃ u f, Passes s draft u f ∧ u.pass f = .found t statement := by
  obtain ⟨u, f, passes, answer | stalled⟩ := passes_of_run h
  · refine ⟨u, f, passes, ?_⟩
    cases hp : u.pass f <;> simp_all [Pass.answer?]
  · cases stalled

theorem passes_of_finished (h : s.read draft = (t, .ok none)) :
    ∃ u f, Passes s draft u f ∧ u.pass f = .finished t := by
  obtain ⟨u, f, passes, answer | stalled⟩ := passes_of_run h
  · refine ⟨u, f, passes, ?_⟩
    cases hp : u.pass f <;> simp_all [Pass.answer?]
  · cases stalled

/-- Where reading fails, a pass has failed, or passes take nothing any more. -/
theorem passes_of_error {fault : Fault} (hc : s.Classified draft)
    (h : s.read draft = (t, .error fault)) :
    ∃ u f, Passes s draft u f ∧ (u.pass f = .failed t fault ∨
      ∃ x, f = some x ∧ u.Stuck x ∧ t = u ∧ fault = .stalled u.line) := by
  induction size : s.cursor.ahead.length using Nat.strongRecOn generalizing s draft with
  | _ length ih =>
    cases answer : (s.pass draft).answer? with
    | some r =>
      rw [read_of_answer answer] at h
      refine ⟨s, draft, .refl s draft, Or.inl ?_⟩
      cases pass : s.pass draft <;> simp_all [Pass.answer?]
    | none =>
      obtain ⟨v, e, pass⟩ := Pass.more_of_answer? answer
      have step := step_of_pass pass
      have later := step_classified step hc
      rw [read_of_more hc pass] at h
      rcases step_advances step hc with shorter | ⟨x, rfl, stuck⟩
      · obtain ⟨u, f, passes, ends⟩ := ih v.cursor.ahead.length (size ▸ shorter) later h rfl
        exact ⟨u, f, .step step passes, ends⟩
      · rw [read, run_stuck _ stuck later] at h
        cases h
        exact ⟨t, some x, .step step (.refl t (some x)), Or.inr ⟨x, rfl, stuck, rfl, rfl⟩⟩

theorem stuck_of_passes (h : Passes s (some d) u f) (stuck : s.Stuck d)
    (hc : s.Classified (some d)) : ∃ d, f = some d ∧ u.Stuck d := by
  generalize held : some d = draft at h hc
  induction h generalizing d with
  | refl => exact ⟨d, held.symm, stuck⟩
  | step first _ ih =>
    subst held
    have same := (pass_of_stuck stuck hc).symm.trans (pass_of_step first)
    cases same
    exact ih (stuck_any stuck _) rfl (step_classified first hc)

/-- Passes take a character, or are none, or have left the session stuck. -/
theorem passes_advance (h : Passes s draft u f) (hc : s.Classified draft) :
    u.cursor.ahead.length < s.cursor.ahead.length ∨ (u = s ∧ f = draft) ∨
      ∃ d, f = some d ∧ u.Stuck d := by
  induction h with
  | refl => exact Or.inr (Or.inl ⟨rfl, rfl⟩)
  | @step s t u draft e f first rest ih =>
    have later := step_classified first hc
    rcases step_advances first hc with shorter | ⟨d, rfl, stuck⟩
    · rcases ih later with further | ⟨rfl, rfl⟩ | stuck
      · exact Or.inl (Nat.lt_trans further shorter)
      · exact Or.inl shorter
      · exact Or.inr (Or.inr stuck)
    · exact Or.inr (Or.inr (stuck_of_passes rest stuck later))

theorem next_shortens {statement : Statement} (h : s.next = (t, .ok (some statement))) :
    t.cursor.ahead.length < s.cursor.ahead.length := by
  obtain ⟨u, f, passes, found⟩ := passes_of_found h
  have hc := classified_none s
  obtain ⟨d, rfl, -, place⟩ := pass_found found
  have within : t.cursor.ahead.length ≤ u.cursor.ahead.length := by
    rcases place with ⟨_, _, n, -, -, rfl⟩ | ⟨-, -, rfl⟩
    · change ((u.cursor.skip n).ahead).length ≤ _
      rw [Cursor.skip_ahead, List.length_drop]
      omega
    · exact Nat.le_refl _
  rcases passes_advance passes hc with shorter | ⟨-, same⟩ | ⟨x, held, stuck⟩
  · exact Nat.lt_of_le_of_lt within shorter
  · cases same
  · cases held
    have again := pass_of_stuck stuck (passes_classified passes hc)
    rw [found] at again
    cases again

theorem found_of_iterate {statement : Statement}
    (h : s.iterate = (t, .ok (some statement))) :
    s.exhausted = false ∧ s.next = (t, .ok (some statement)) := by
  simp only [iterate] at h
  split at h
  · cases h
  · next live =>
    refine ⟨Bool.eq_false_iff.mpr live, ?_⟩
    rcases found : s.next with ⟨u, fault | _ | other⟩ <;> rw [found] at h <;> cases h
    rfl

theorem iterate_of_found {statement : Statement} (live : s.exhausted = false)
    (h : s.next = (t, .ok (some statement))) : s.iterate = (t, .ok (some statement)) := by
  simp only [iterate, live, h, Bool.false_eq_true, if_false]

theorem gather_none {bound : List Char} {found : List Statement}
    (h : s.iterate = (t, .ok none)) : gather bound found s = (t, .ok found.reverse) := by
  rw [gather, h]

theorem gather_error {bound : List Char} {found : List Statement} {fault : Fault}
    (h : s.iterate = (t, .error fault)) : gather bound found s = (t, .error fault) := by
  rw [gather, h]

theorem gather_some {bound : List Char} {found : List Statement} {statement : Statement} (x : Char)
    (h : s.iterate = (t, .ok (some statement))) :
    gather (x :: bound) found s = gather bound (statement :: found) t := by
  rw [gather, h]

/-- Statements already found only stand before those still to come. -/
theorem gather_found (bound : List Char) (found : List Statement) :
    gather bound found s =
      ((gather bound [] s).1, (gather bound [] s).2.map (found.reverse ++ ·)) := by
  induction bound generalizing s found with
  | nil =>
    rcases h : s.iterate with ⟨t, fault | _ | statement⟩
    · simp [gather_error h, Except.map]
    · simp [gather_none h, Except.map]
    · rw [gather, gather, h]
      rfl
  | cons x bound ih =>
    rcases h : s.iterate with ⟨t, fault | _ | statement⟩
    · simp [gather_error h, Except.map]
    · simp [gather_none h, Except.map]
    · rw [gather_some x h, gather_some x h, ih (statement :: found), ih [statement]]
      cases (gather bound [] t).2 <;> simp [Except.map]

theorem gather_bound (a b : List Char) (ha : s.cursor.ahead.length ≤ a.length)
    (hb : s.cursor.ahead.length ≤ b.length) : gather a [] s = gather b [] s := by
  induction a generalizing s b with
  | nil =>
    rcases h : s.iterate with ⟨t, fault | _ | statement⟩
    · rw [gather_error h, gather_error h]
    · rw [gather_none h, gather_none h]
    · have shorter := next_shortens (found_of_iterate h).2
      simp only [List.length_nil] at ha
      omega
  | cons x a ih =>
    rcases h : s.iterate with ⟨t, fault | _ | statement⟩
    · rw [gather_error h, gather_error h]
    · rw [gather_none h, gather_none h]
    · have shorter := next_shortens (found_of_iterate h).2
      cases b with
      | nil =>
        simp only [List.length_nil] at hb
        omega
      | cons y b =>
        simp only [List.length_cons] at ha hb
        rw [gather_some x h, gather_some y h, gather_found a, gather_found b,
          ih b (by omega) (by omega)]

theorem remaining_of_none (live : s.exhausted = false) (h : s.next = (t, .ok none)) :
    s.remaining = ({ t with exhausted := true }, .ok []) := by
  have ends : s.iterate = ({ t with exhausted := true }, .ok none) := by
    simp only [iterate, live, h, Bool.false_eq_true, if_false]
  exact gather_none ends

theorem remaining_of_error {fault : Fault} (live : s.exhausted = false)
    (h : s.next = (t, .error fault)) :
    s.remaining = ({ t with exhausted := true }, .error fault) := by
  have ends : s.iterate = ({ t with exhausted := true }, .error fault) := by
    simp only [iterate, live, h, Bool.false_eq_true, if_false]
  exact gather_error ends

/-- All statements are the next one and those after it. -/
theorem remaining_of_found {statement : Statement} (live : s.exhausted = false)
    (h : s.next = (t, .ok (some statement))) :
    s.remaining = (t.remaining.1, t.remaining.2.map (statement :: ·)) := by
  have shorter := next_shortens h
  cases ahead : s.cursor.ahead with
  | nil =>
    rw [ahead, List.length_nil] at shorter
    omega
  | cons x rest =>
    rw [ahead, List.length_cons] at shorter
    rw [remaining, ahead, gather_some x (iterate_of_found live h), gather_found,
      gather_bound rest t.cursor.ahead (by omega) (Nat.le_refl _)]
    rfl

/-- How a list of all statements comes about. -/
theorem remaining_ok_cases {statements : List Statement} (live : s.exhausted = false)
    (h : s.remaining.2 = .ok statements) :
    (statements = [] ∧ ∃ t, s.next = (t, .ok none)) ∨
      ∃ t statement later, statements = statement :: later ∧
        s.next = (t, .ok (some statement)) ∧ t.remaining.2 = .ok later := by
  rcases found : s.next with ⟨t, fault | _ | statement⟩
  · rw [remaining_of_error live found] at h
    cases h
  · rw [remaining_of_none live found] at h
    cases h
    exact Or.inl ⟨rfl, t, rfl⟩
  · rw [remaining_of_found live found] at h
    cases rest : t.remaining.2 with
    | error fault => simp [rest, Except.map] at h
    | ok later =>
      simp only [rest, Except.map, Except.ok.injEq] at h
      exact Or.inr ⟨t, statement, later, h.symm, rfl, rest⟩

end Session

end SqlBoundary
