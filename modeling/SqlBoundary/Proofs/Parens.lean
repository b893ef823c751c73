import Mathlib.Data.List.Induction
import Mathlib.Data.List.Infix
import SqlBoundary.Proofs.Calls
import SqlBoundary.Proofs.Reads

/-!
# Parentheses left open

How many parentheses are open is counted over the whole script, and no end of a statement
sets the counter back. An inline delimiter waits until all of them are closed, so that it leaves none.
A delimiter alone on its line does not look at them: what its statement leaves open stays
open, and the next inline delimiter waits for a parenthesis that closes it in another
statement.

`openParens` counts them as a session does, from the tokens alone; `Balanced` says without any
counting up and down that none is left. Both agree as long as all parentheses that open can be
counted; a script of parentheses that open shows what happens beyond that.
-/

namespace SqlBoundary

/-- The parentheses open after this token, where `level` are open before it. -/
def Item.level (level : Int32) : Item → Int32
  | .word _ => level
  | .quoted => level
  | .symbol c => parensAfter level c

/-- The parentheses that these tokens leave open. -/
def openParens (items : List Item) : Int32 := items.foldl Item.level 0

/-- By how many the opening parentheses outnumber the closing ones. -/
def excess (items : List Item) : Int := items.count (.symbol '(') - items.count (.symbol ')')

/-- From no token on are there more parentheses that open than close. -/
def Balanced (items : List Item) : Prop := ∀ later, later <:+ items → excess later ≤ 0

@[simp] theorem excess_nil : excess [] = 0 := rfl

@[simp] theorem excess_append (items later : List Item) :
    excess (items ++ later) = excess items + excess later := by
  simp only [excess, List.count_append, Int.natCast_add]
  omega

@[simp] theorem openParens_concat (items : List Item) (x : Item) :
    openParens (items ++ [x]) = Item.level (openParens items) x := by
  rw [openParens, List.foldl_append]
  rfl

/-- One token changes the count by its excess, but never to less than none. -/
theorem level_eq {level : Int32} (floor : 0 ≤ level) {x : Item}
    (room : (level : Int) + [x].count (.symbol '(') < 2 ^ 31) :
    (Item.level level x : Int) = max 0 ((level : Int) + excess [x]) := by
  have least := depth_nonneg.mp floor
  cases x with
  | word text => simp [Item.level, excess, Int.max_eq_right least]
  | quoted => simp [Item.level, excess, Int.max_eq_right least]
  | symbol c =>
    have same : [Item.symbol c].count (.symbol '(') = [c].count '(' := by
      simp [List.count_singleton]
    rw [same] at room
    rw [Item.level, parensAfter_eq floor room]
    by_cases opens : c = '('
    · subst opens
      have one : excess [.symbol '('] = 1 := by decide
      rw [one, if_pos rfl]
      omega
    · by_cases closes : c = ')'
      · subst closes
        have one : excess [.symbol ')'] = -1 := by decide
        rw [one, if_neg opens, if_pos rfl]
        rfl
      · simp [excess, opens, closes, Int.max_eq_right least]

section

variable {items later : List Item}

/-- As long as all can be counted, the count is a number of parentheses. -/
theorem openParens_le (fit : items.count (.symbol '(') < 2 ^ 31) :
    0 ≤ openParens items ∧ (openParens items : Int) ≤ items.count (.symbol '(') := by
  induction items using List.reverseRecOn with
  | nil => exact ⟨Int32.le_refl 0, Int.le_refl 0⟩
  | append_singleton items x ih =>
    rw [List.count_append] at fit
    obtain ⟨floor, bound⟩ := ih (by omega)
    have fewer : excess [x] ≤ [x].count (.symbol '(') := by
      rw [excess]
      omega
    rw [openParens_concat, depth_nonneg, level_eq floor (by omega), List.count_append]
    omega

theorem fit_of_append (fit : (items ++ later).count (.symbol '(') < 2 ^ 31) :
    items.count (.symbol '(') < 2 ^ 31 := by
  rw [List.count_append] at fit
  omega

theorem openParens_concat_eq {x : Item} (fit : (items ++ [x]).count (.symbol '(') < 2 ^ 31) :
    (openParens (items ++ [x]) : Int) = max 0 ((openParens items : Int) + excess [x]) := by
  obtain ⟨floor, bound⟩ := openParens_le (fit_of_append fit)
  rw [List.count_append] at fit
  rw [openParens_concat, level_eq floor (by omega)]

theorem excess_le_openParens (fit : items.count (.symbol '(') < 2 ^ 31)
    (ending : later <:+ items) : excess later ≤ openParens items := by
  induction items using List.reverseRecOn generalizing later with
  | nil =>
    rw [List.suffix_nil.mp ending]
    exact Int.le_refl 0
  | append_singleton items x ih =>
    rw [openParens_concat_eq fit]
    rcases List.suffix_concat_iff.mp ending with rfl | ⟨before, rfl, within⟩
    · rw [excess_nil]
      omega
    · have here := ih (fit_of_append fit) within
      rw [excess_append]
      omega

theorem exists_excess_eq (fit : items.count (.symbol '(') < 2 ^ 31) :
    ∃ later, later <:+ items ∧ excess later = openParens items := by
  induction items using List.reverseRecOn with
  | nil => exact ⟨[], List.suffix_rfl, rfl⟩
  | append_singleton items x ih =>
    obtain ⟨later, ending, same⟩ := ih (fit_of_append fit)
    rw [openParens_concat_eq fit]
    by_cases some : 0 ≤ (openParens items : Int) + excess [x]
    · refine ⟨later ++ [x], List.suffix_concat_iff.mpr (Or.inr ⟨later, rfl, ending⟩), ?_⟩
      rw [excess_append, same]
      omega
    · refine ⟨[], List.nil_suffix, ?_⟩
      rw [excess_nil]
      omega

/-- No parenthesis is left open exactly where no end of the tokens opens more than it closes. -/
theorem openParens_eq_zero_iff (fit : items.count (.symbol '(') < 2 ^ 31) :
    openParens items = 0 ↔ Balanced items := by
  constructor
  · intro none later ending
    have most := excess_le_openParens fit ending
    rw [none] at most
    exact most
  · intro balanced
    obtain ⟨later, ending, same⟩ := exists_excess_eq fit
    have most := balanced later ending
    rw [same] at most
    exact Int32.le_antisymm (Int32.le_iff_toInt_le.mpr most) (openParens_le fit).1

/-- What some tokens leave open is closed by those that follow, if all are balanced. -/
theorem Balanced.closes (balanced : Balanced (items ++ later))
    (fit : items.count (.symbol '(') < 2 ^ 31) : (openParens items : Int) + excess later ≤ 0 := by
  obtain ⟨open_, ending, same⟩ := exists_excess_eq fit
  have whole : open_ ++ later <:+ items ++ later := by
    obtain ⟨before, rfl⟩ := ending
    exact ⟨before, (List.append_assoc before open_ later).symm⟩
  have most := balanced (open_ ++ later) whole
  rw [excess_append, same] at most
  exact most

end

namespace Session

variable {s t u : Session} {draft e f : Option Draft} {d : Draft} {c : Call}
variable {statement : Statement}

/-- The tokens that these calls read. -/
def tokens (s : Session) (calls : List Call) : List Item := s.tracedCalls item? calls

/-- A step counts the token that it takes. -/
theorem step_level (h : Step s draft t e) :
    t.context.parens = (s.item? draft).toList.foldl Item.level s.context.parens := by
  cases h with
  | gap ahead found => rw [item?_of_gap ahead found]; rfl
  | delimiter ahead found => rw [item?_of_gap ahead found]; rfl
  | text ahead solid begun token =>
    rw [item?_of_begin ahead solid begun, token]
    obtain ⟨kind, rfl⟩ := begin_ok begun
    rfl
  | symbol ahead solid begun token =>
    rw [item?_of_begin ahead solid begun, token]
    obtain ⟨kind, rfl⟩ := begin_ok begun
    rw [countParen_eq]
    rfl
  | directive ahead solid begun token =>
    rw [item?_of_begin ahead solid begun, token]
    obtain ⟨kind, rfl⟩ := begin_ok begun
    rfl
  | word ahead solid begun token _ taken =>
    rw [item?_of_begin ahead solid begun, token]
    obtain ⟨kind, rfl⟩ := begin_ok begun
    obtain ⟨-, blocks, lastClosed, warnings, rfl⟩ := takeWord_more taken
    rw [classify_eq]
    rfl

/-- What a session counts is what the tokens read so far leave open. -/
theorem after_level (dialect : Dialect) (delimiter : Delimiter) (script : String)
    (calls : List Call) :
    ((ofScript dialect delimiter script).after calls).context.parens =
      openParens ((ofScript dialect delimiter script).tokens calls) := by
  refine after_traced (fun s => s.context.parens) (fun _ _ => rfl) ?_ ?_ _ calls
  · intro t e u f step
    exact step_level step
  · intro t e u r answer
    obtain ⟨n, _, _, rfl, -⟩ := answer_frame answer
    rfl

theorem tokens_append (s : Session) (calls later : List Call) :
    s.tokens (calls ++ later) = s.tokens calls ++ (s.after calls).tokens later :=
  tracedCalls_append item? s calls later

/-- After a statement that a delimiter has ended, as many parentheses are open as the tokens
of the whole script so far leave open: none exactly where these are balanced, if all of them can
be counted. An inline delimiter has waited for that, and its statement has closed what those
before it left open. -/
theorem parens_of_delimited (dialect : Dialect) (delimiter : Delimiter) (script : String)
    (calls : List Call) (c : Call) {t : Session} {statement : Statement}
    (found : ((ofScript dialect delimiter script).after calls).answer c =
      (t, .ok (some statement)))
    (delimited : ((ofScript dialect delimiter script).after calls).Delimited t statement) :
    t.context.parens = openParens ((ofScript dialect delimiter script).tokens (calls ++ [c])) ∧
    (((ofScript dialect delimiter script).tokens (calls ++ [c])).count (.symbol '(') < 2 ^ 31 →
      (t.context.parens = 0 ↔
        Balanced ((ofScript dialect delimiter script).tokens (calls ++ [c]))) ∧
      (statement.delimiter.aloneOnLine = false →
        Balanced ((ofScript dialect delimiter script).tokens (calls ++ [c])) ∧
        (openParens ((ofScript dialect delimiter script).tokens calls) : Int) +
          excess (((ofScript dialect delimiter script).after calls).tokens [c]) ≤ 0)) := by
  let s := ofScript dialect delimiter script
  have counted : t.context.parens = openParens (s.tokens (calls ++ [c])) := by
    have last : s.after (calls ++ [c]) = t := by
      rw [after_append, after, found]
      rfl
    rw [← last]
    exact after_level dialect delimiter script (calls ++ [c])
  refine ⟨counted, ?_⟩
  intro fit
  have none : t.context.parens = 0 ↔ Balanced (s.tokens (calls ++ [c])) := by
    rw [counted]
    exact openParens_eq_zero_iff fit
  refine ⟨none, ?_⟩
  intro inline
  have floor : 0 ≤ t.context.parens := by
    rw [counted]
    exact (openParens_le fit).1
  have balanced := none.mp (Int32.le_antisymm (level_of_delimited delimited inline) floor)
  refine ⟨balanced, ?_⟩
  rw [tokens_append] at balanced fit
  exact balanced.closes (fit_of_append fit)

/-- The parenthesis that a type leaves open is closed by the query after it. -/
theorem parens_of_delimited_oracle :
    let s := ofScript .oracle .semicolon
      "CREATE TYPE t AS OBJECT (a NUMBER;\n/\nSELECT 1);\n"
    (∃ t statement, s.next = (t, .ok (some statement)) ∧ statement.delimiter = .slash ∧
      ¬ Balanced (s.tokens [.next]) ∧ t.context.parens = openParens (s.tokens [.next])) ∧
    ∃ u statement, (s.after [.next]).next = (u, .ok (some statement)) ∧
      statement.delimiter = .semicolon ∧ u.context.parens = 0 ∧
      1 + excess ((s.after [.next]).tokens [.next]) ≤ 0 := by
  intro s
  let script := "CREATE TYPE t AS OBJECT (a NUMBER;\n/\nSELECT 1);\n"
  let t := s.next.1
  let u := (s.after [.next]).next.1
  let unit : Statement := ⟨1, 0, 34, "CREATE TYPE t AS OBJECT (a NUMBER;", .slash⟩
  let query : Statement := ⟨3, 37, 46, "SELECT 1)", .semicolon⟩
  have calls : s.next = (t, .ok (some unit)) ∧ t.cursor.ahead ≠ [] ∧ t.context.parens = 1 ∧
      (s.after [.next]).next = (u, .ok (some query)) ∧ u.cursor.ahead ≠ [] := by
    decide +kernel
  obtain ⟨first, rest, one, second, rest'⟩ := calls
  have delimited : s.Delimited t unit := delimited_of_rest first rest
  have delimited' : (s.after [.next]).Delimited u query := delimited_of_rest second rest'
  obtain ⟨counted, counts⟩ :=
    parens_of_delimited .oracle .semicolon script [] .next first delimited
  obtain ⟨-, counts'⟩ :=
    parens_of_delimited .oracle .semicolon script [.next] .next second delimited'
  obtain ⟨leaves, -⟩ := counts (by decide +kernel)
  obtain ⟨none, waits⟩ := counts' (by decide +kernel)
  have left : openParens (s.tokens [.next]) = 1 := by
    rw [← one]
    exact counted.symm
  obtain ⟨balanced, closes⟩ := waits rfl
  refine ⟨⟨t, unit, first, rfl, ?_, counted⟩, u, query, second, rfl, none.mpr balanced, ?_⟩
  · intro closed
    have zero := leaves.mpr closed
    rw [one] at zero
    cases zero
  · have one : (openParens (s.tokens [.next]) : Int) = 1 := by rw [left, Int32.toInt_one]
    rw [← one]
    exact closes

/-- What a unit leaves open makes one statement of the two queries after it. -/
theorem splitFrom_open_paren :
    let script :=
      "CREATE TYPE t AS OBJECT (a NUMBER;\n/\nSELECT 1 FROM dual;\nSELECT 2 FROM dual;\n"
    let s := ofScript .oracle .semicolon script
    (∃ t statement, s.next = (t, .ok (some statement)) ∧ s.Delimited t statement ∧
      t.context.parens ≠ 0) ∧
    splitFrom .oracle .semicolon script = .ok [
      ⟨1, 0, 34, "CREATE TYPE t AS OBJECT (a NUMBER;", .slash⟩,
      ⟨3, 37, 76, "SELECT 1 FROM dual;\nSELECT 2 FROM dual;", .semicolon⟩] := by
  intro script s
  let t := s.next.1
  let unit : Statement := ⟨1, 0, 34, "CREATE TYPE t AS OBJECT (a NUMBER;", .slash⟩
  have call : s.next = (t, .ok (some unit)) ∧ t.cursor.ahead ≠ [] ∧ t.context.parens ≠ 0 := by
    decide +kernel
  obtain ⟨first, rest, left⟩ := call
  refine ⟨⟨t, unit, first, delimited_of_rest first rest, left⟩, ?_⟩
  decide +kernel

/-- Nothing stands in the way of an opening parenthesis. -/
theorem step_openParen (draft : Option Draft) {rest : List Char} (procedural : s.dialect.Procedural)
    (ordinary : s.context.delimiter.Ordinary) (ahead : s.cursor.ahead = '(' :: rest) :
    ∃ t e, Step s draft t e ∧ t.cursor.ahead = rest ∧ t.dialect = s.dialect ∧
      t.context.delimiter = s.context.delimiter ∧ t.context.parens = s.context.parens + 1 := by
  have known : s.dialect.kind ≠ .unknown := by
    rcases procedural with dialect | dialect <;> rw [dialect] <;> decide
  obtain ⟨u, d, begun⟩ : ∃ u d, s.begin draft = .ok (u, d) := by
    cases draft with
    | some d => exact ⟨s, d, rfl⟩
    | none => exact ⟨_, _, begin_eq_ok_iff.mpr (Or.inr ⟨rfl, known, rfl, rfl⟩)⟩
  obtain ⟨kind, same⟩ := begin_ok begun
  have token : u.dialect.token u.context.startsWord '(' rest = .symbol '(' := by
    have dialect : u.dialect.Procedural := by rw [same]; exact procedural
    have other : u.context.startsWord '(' = false := startsWord_sign (by decide) u.context
    rw [dialect.token (by decide), other]
    rfl
  have solid : s.gap? draft '(' = none :=
    gap?_ready ⟨procedural, ordinary, Or.inr (Or.inl (by decide))⟩ ahead (by decide) (by decide)
  refine ⟨_, _, .symbol ahead solid begun token, ?_, ?_, ?_, ?_⟩
  all_goals rw [countParen_eq, same]
  · change (s.cursor.skip 1).ahead = rest
    rw [Cursor.skip_ahead, ahead]
    rfl
  all_goals rfl

theorem passes_openParens (draft : Option Draft) {n : Nat} {rest : List Char}
    (procedural : s.dialect.Procedural) (ordinary : s.context.delimiter.Ordinary)
    (ahead : s.cursor.ahead = List.replicate n '(' ++ rest) :
    ∃ u f, Passes s draft u f ∧ u.cursor.ahead = rest ∧
      u.context.parens = s.context.parens + Int32.ofNat n := by
  induction n generalizing s draft with
  | zero => exact ⟨s, draft, .refl s draft, ahead, (Int32.add_zero _).symm⟩
  | succ n ih =>
    obtain ⟨t, e, step, left, dialect, delimiter, counted⟩ :=
      step_openParen draft procedural ordinary ahead
    obtain ⟨u, f, passes, left, more⟩ := ih e (by rw [dialect]; exact procedural)
      (by rw [delimiter]; exact ordinary) left
    refine ⟨u, f, .step step passes, left, ?_⟩
    rw [more, counted, Nat.add_comm n, Int32.ofNat_add, Int32.add_assoc]
    rfl

/-- However many parentheses open, each is counted. -/
theorem parens_of_replicate (n : Nat) : ∃ u f,
    Passes (ofScript .mysql .semicolon (String.ofList (List.replicate n '('))) none u f ∧
      u.context.parens = Int32.ofNat n := by
  have text : (ofScript .mysql .semicolon (String.ofList (List.replicate n '('))).cursor.ahead =
      List.replicate n '(' ++ [] := String.toList_ofList.trans (List.append_nil _).symm
  obtain ⟨u, f, passes, -, counted⟩ :=
    passes_openParens none (Or.inl rfl) (Or.inl rfl) text
  exact ⟨u, f, passes, counted.trans (Int32.zero_add _)⟩

/-- With one more than can be counted, fewer than none are open. -/
theorem parens_overflow : ∃ u f,
    Passes (ofScript .mysql .semicolon (String.ofList (List.replicate (2 ^ 31) '('))) none u f ∧
      u.context.parens < 0 := by
  obtain ⟨u, f, passes, counted⟩ := parens_of_replicate (2 ^ 31)
  refine ⟨u, f, passes, ?_⟩
  rw [counted]
  decide

end Session

end SqlBoundary
