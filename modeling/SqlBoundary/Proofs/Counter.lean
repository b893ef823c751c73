import Mathlib.Algebra.Group.Int.Defs
import Mathlib.Algebra.Group.Nat.Defs
import SqlBoundary.Proofs.Frame

/-!
# The counter of parentheses

Parentheses are counted in 32 bits. As long as all that a text opens can be counted, the depth is
the number of those open: it grows by one, and is never below none. In a text that opens more, the
depth goes on with the smallest number, and an inline delimiter takes it for one outside parentheses.
-/

namespace SqlBoundary

/-- All opening parentheses of the text can be counted. -/
def ParensFit (text : List Char) : Prop := text.count '(' < 2 ^ 31

instance (text : List Char) : Decidable (ParensFit text) :=
  inferInstanceAs (Decidable (text.count '(' < 2 ^ 31))

theorem count_paren_cons (c : Char) (rest : List Char) :
    (c :: rest).count '(' = [c].count '(' + rest.count '(' := by
  rw [← List.count_append, List.singleton_append]

theorem depth_nonneg {level : Int32} : 0 ≤ level ↔ 0 ≤ (level : Int) := Int32.le_iff_toInt_le

theorem depth_pos {level : Int32} : 0 < level ↔ 0 < (level : Int) := Int32.lt_iff_toInt_lt

section

variable {level : Int32} {c : Char}

theorem depth_succ (floor : 0 ≤ level) (room : (level : Int) + 1 < 2 ^ 31) :
    ((level + 1 : Int32) : Int) = level + 1 := by
  have floor := depth_nonneg.mp floor
  rw [Int32.toInt_add, Int32.toInt_one]
  exact Int.bmod_eq_of_le (by omega) (by omega)

theorem depth_pred (some : 0 < level) : ((level - 1 : Int32) : Int) = level - 1 := by
  have some := depth_pos.mp some
  have most := level.toInt_lt
  rw [Int32.toInt_sub, Int32.toInt_one]
  exact Int.bmod_eq_of_le (by omega) (by omega)

/-- A symbol changes the depth as a number, as long as there is room for one more. -/
theorem parensAfter_eq (floor : 0 ≤ level) (room : (level : Int) + [c].count '(' < 2 ^ 31) :
    (parensAfter level c : Int) =
      if c = '(' then (level : Int) + 1
      else if c = ')' then max 0 ((level : Int) - 1)
      else level := by
  rw [parensAfter]
  by_cases left : c = '('
  · subst left
    exact depth_succ floor room
  · rw [if_neg left, if_neg (by simp [left])]
    by_cases right : c = ')'
    · rw [if_pos right]
      have least := depth_nonneg.mp floor
      by_cases some : 0 < level
      · have one := depth_pos.mp some
        rw [if_pos (by simp [right, some]), depth_pred some]
        omega
      · have none := mt depth_pos.mpr some
        rw [if_neg (by simp [some])]
        omega
    · rw [if_neg right, if_neg (by simp [right])]

theorem parensAfter_le (floor : 0 ≤ level) (room : (level : Int) + [c].count '(' < 2 ^ 31) :
    0 ≤ parensAfter level c ∧ (parensAfter level c : Int) ≤ level + [c].count '(' := by
  have least := depth_nonneg.mp floor
  rw [depth_nonneg, parensAfter_eq floor room]
  by_cases left : c = '('
  · subst left
    have one : ['('].count '(' = 1 := rfl
    rw [if_pos rfl]
    omega
  · rw [if_neg left]
    split <;> omega

end

namespace Session

variable {s t : Session} {draft e : Option Draft}

/-- What is open and all that may still open can be counted. -/
structure Fits (s : Session) : Prop where
  floor : 0 ≤ s.context.parens
  room : (s.context.parens : Int) + s.cursor.ahead.count '(' < 2 ^ 31

theorem fits_of_level (level : s.context.parens = 0) (fit : ParensFit s.cursor.ahead) :
    s.Fits := by
  refine ⟨Int32.le_of_eq level.symm, ?_⟩
  rw [ParensFit] at fit
  rw [level, Int32.toInt_zero]
  omega

theorem fits_ofScript (dialect : Dialect) (delimiter : Delimiter) {script : String}
    (fit : ParensFit script.toList) : (ofScript dialect delimiter script).Fits :=
  fits_of_level rfl fit

theorem count_skip (cur : Cursor) (n : Nat) :
    (cur.skip n).ahead.count '(' ≤ cur.ahead.count '(' := by
  rw [Cursor.skip_ahead]
  exact (List.drop_sublist n cur.ahead).count_le '('

theorem Fits.skip {n : Nat} (fits : s.Fits) (level : t.context.parens = s.context.parens)
    (moved : t.cursor = s.cursor.skip n) : t.Fits := by
  have fewer := count_skip s.cursor n
  have room := fits.room
  rw [← moved] at fewer
  refine ⟨level ▸ fits.floor, ?_⟩
  rw [level]
  omega

/-- Only a symbol changes the depth. -/
theorem step_parens (h : Step s draft t e) : t.context.parens = s.context.parens ∨
    ∃ c rest, s.cursor.ahead = c :: rest ∧ t.cursor = s.cursor.skip 1 ∧
      t.context.parens = parensAfter s.context.parens c := by
  cases h with
  | gap => exact Or.inl rfl
  | delimiter => exact Or.inl rfl
  | text _ _ begun =>
    obtain ⟨kind, rfl⟩ := begin_ok begun
    exact Or.inl rfl
  | symbol ahead _ begun =>
    obtain ⟨kind, rfl⟩ := begin_ok begun
    rw [countParen_eq]
    exact Or.inr ⟨_, _, ahead, rfl, rfl⟩
  | directive _ _ begun =>
    obtain ⟨kind, rfl⟩ := begin_ok begun
    exact Or.inl rfl
  | word _ _ begun _ _ taken =>
    obtain ⟨kind, rfl⟩ := begin_ok begun
    obtain ⟨-, blocks, lastClosed, warnings, rfl⟩ := takeWord_more taken
    rw [classify_eq]
    exact Or.inl rfl

theorem step_fits (h : Step s draft t e) (fits : s.Fits) : t.Fits := by
  rcases step_parens h with same | ⟨c, rest, ahead, moved, counted⟩
  · obtain ⟨n, moved⟩ := step_skip h
    exact fits.skip same moved
  · have floor := depth_nonneg.mp fits.floor
    have room := fits.room
    have left : t.cursor.ahead = rest := by
      rw [moved, Cursor.skip_ahead, ahead]
      rfl
    rw [ahead, count_paren_cons] at room
    obtain ⟨least, most⟩ := parensAfter_le (c := c) fits.floor (by omega)
    rw [← counted] at least most
    refine ⟨least, ?_⟩
    rw [left]
    omega

end Session

end SqlBoundary
