import SqlBoundary.Proofs.History
import SqlBoundary.Proofs.Visits

/-!
# Every state that reading can come to

What holds after any number of passes and calls, faults included: the cursor stands between
the two parts of the script that it tells of, no more parentheses are closed than were open, if
all of them can be counted, and a statement that has begun is of the dialect's kind. An answer changes less than a step
does: parentheses and blocks stay as they are.
-/

namespace SqlBoundary

open Text

namespace Session

variable {s t u : Session} {draft e f : Option Draft} {d : Draft} {items : List Item}
variable {dialect : Dialect} {delimiter : Delimiter} {script : String}

/-- The cursor stands between two parts of the script. -/
def Placed (script : List Char) (s : Session) : Prop :=
  ∃ passed, script = passed ++ s.cursor.ahead ∧ s.cursor = .between passed s.cursor.ahead

theorem placed_ofScript (dialect : Dialect) (delimiter : Delimiter) (script : String) :
    Placed script.toList (ofScript dialect delimiter script) :=
  ⟨[], rfl, rfl⟩

theorem Placed.skip {script : List Char} {n : Nat} (placed : Placed script s)
    (moved : t.cursor = s.cursor.skip n) : Placed script t := by
  obtain ⟨passed, whole, place⟩ := placed
  have ahead : t.cursor.ahead = s.cursor.ahead.drop n := by rw [moved, Cursor.skip_ahead]
  refine ⟨passed ++ s.cursor.ahead.take n, ?_, ?_⟩
  · rw [ahead, List.append_assoc, List.take_append_drop]
    exact whole
  · rw [ahead, moved]
    exact skip_place place n

/-- The bytes passed and those ahead are those of the script. -/
theorem Placed.offset {script : List Char} (placed : Placed script s) :
    s.cursor.offset + byteSize s.cursor.ahead = byteSize script := by
  obtain ⟨passed, whole, place⟩ := placed
  have offset : s.cursor.offset = byteSize passed := by rw [place]; rfl
  rw [whole, byteSize_append, offset]

/-- A step keeps the active delimiter or makes that of a stored unit active. Between statements
it may put the script's own back, or set a new one for both. -/
theorem step_delimiter (h : Step s draft t e) : t.context.delimiter = s.context.delimiter ∨
    t.context.delimiter = .slash ∨ e = none ∧ t.context.delimiter = t.scriptDelimiter := by
  cases h with
  | gap => exact Or.inl rfl
  | delimiter => exact Or.inr (Or.inr ⟨rfl, rfl⟩)
  | text _ _ begun =>
    obtain ⟨kind, rfl⟩ := begin_ok begun
    exact Or.inl rfl
  | symbol _ _ begun =>
    obtain ⟨kind, rfl⟩ := begin_ok begun
    rw [countParen_eq]
    exact Or.inl rfl
  | directive => exact Or.inr (Or.inr ⟨rfl, rfl⟩)
  | @word _ _ c rest u _ x _ _ begun _ _ taken =>
    obtain ⟨kind, rfl⟩ := begin_ok begun
    obtain ⟨-, blocks, lastClosed, warnings, rfl⟩ := takeWord_more taken
    rw [classify_eq]
    cases asked : x.asks s.dialect.blocks (wordText { s with context := { s.context with kind } }) with
    | none => exact Or.inl (by rw [afterWord, skip]; dsimp only; rw [asked]; rfl)
    | some y =>
      obtain ⟨-, rfl⟩ := asks_eq_some asked
      exact Or.inr (Or.inl (by rw [afterWord, skip]; dsimp only; rw [asked]; rfl))

/-- The script's own delimiter changes only by a directive ahead. -/
theorem step_sets (h : Step s draft t e) : t.scriptDelimiter = s.scriptDelimiter ∨
    ∃ x, t.scriptDelimiter = x ∧
      Delimiter.ofDirective? (currentLine s.cursor.ahead) = .ok (some x) := by
  rcases step_script h with same | ⟨-, x, ⟨-, -, begun, -, -, line⟩⟩
  · exact Or.inl same
  · rw [← begin_cursor begun]
    exact Or.inr ⟨x, rfl, line⟩

/-- What steps keep is kept by passes. -/
theorem passes_keep {P : Session → Prop} (steps : ∀ t e u f, Step t e u f → P t → P u)
    (h : Passes s draft u f) (holds : P s) : P u := by
  induction h with
  | refl => exact holds
  | step first _ ih => exact ih (steps _ _ _ _ first holds)

theorem reached_placed (h : Reached dialect delimiter script s draft items) :
    Placed script.toList s := by
  induction h with
  | start => exact placed_ofScript dialect delimiter script
  | more _ pass ih =>
    obtain ⟨n, moved⟩ := step_skip (step_of_pass pass)
    exact ih.skip moved
  | outside _ pass ih =>
    obtain ⟨n, moved⟩ := step_skip (step_of_pass pass)
    exact ih.skip moved
  | again _ _ _ answer ih =>
    obtain ⟨n, _, _, rfl, -⟩ := answer_frame answer
    exact ih.skip rfl

theorem reached_classified (h : Reached dialect delimiter script s draft items) :
    s.Classified draft := by
  induction h with
  | start => exact classified_none _
  | more _ pass ih => exact step_classified (step_of_pass pass) ih
  | outside => exact classified_none _
  | again => exact classified_none _

/-- A statement that has begun is of the kind of the dialect. -/
def Typed (s : Session) (draft : Option Draft) : Prop :=
  draft.isSome = true → s.context.kind = s.dialect.kind

theorem typed_begin (typed : s.Typed draft) (begun : s.begin draft = .ok (u, d)) :
    u.context.kind = s.dialect.kind := by
  rcases begin_eq_ok_iff.mp begun with ⟨rfl, rfl⟩ | ⟨-, -, -, rfl⟩
  · exact typed rfl
  · rfl

theorem step_typed (h : Step s draft t e) (typed : s.Typed draft) : t.Typed e := by
  intro held
  rw [step_dialect h]
  cases h with
  | gap => exact typed held
  | delimiter => cases held
  | text _ _ begun =>
    have kind := typed_begin typed begun
    exact kind
  | symbol _ _ begun =>
    have kind := typed_begin typed begun
    rw [countParen_eq]
    exact kind
  | directive => cases held
  | word _ _ begun _ _ taken =>
    have kind := typed_begin typed begun
    obtain ⟨-, blocks, lastClosed, warnings, rfl⟩ := takeWord_more taken
    rw [classify_eq]
    exact kind

theorem typed_none (s : Session) : s.Typed none := by
  rintro ⟨⟩

theorem reached_typed (h : Reached dialect delimiter script s draft items) : s.Typed draft := by
  induction h with
  | start => exact typed_none _
  | more _ pass ih => exact step_typed (step_of_pass pass) ih
  | outside => exact typed_none _
  | again => exact typed_none _

end Session

end SqlBoundary
