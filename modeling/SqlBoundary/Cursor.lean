import SqlBoundary.Delimiter

/-!
# Reading position

What is left of a script, and the place where that begins. A cursor moves forward one
character at a time and in no other way, so that its place always agrees with the
characters it has passed: `between` states this place without any movement.
-/

namespace SqlBoundary

open Text

structure Cursor where
  ahead : List Char
  /-- Characters passed. -/
  index : Nat
  /-- Bytes passed. -/
  offset : Nat
  /-- The current line, counted from one. -/
  line : Nat
  /-- Whether a character that is not blank has been passed on this line. -/
  content : Bool
deriving DecidableEq

namespace Cursor

def start (script : List Char) : Cursor := ⟨script, 0, 0, 1, false⟩

/-- Moves past one character; at the end of the script, stays. -/
def advance (cur : Cursor) : Cursor :=
  match cur.ahead with
  | [] => cur
  | c :: rest =>
    { ahead := rest
      index := cur.index + 1
      offset := cur.offset + c.utf8Size
      line := if c == '\n' then cur.line + 1 else cur.line
      content := if c == '\n' then false else cur.content || !isBlank c }

def skip : Nat → Cursor → Cursor
  | 0, cur => cur
  | n + 1, cur => skip n cur.advance

/-- Moves to the end of the line. -/
def skipLine (cur : Cursor) : Cursor := cur.skip (lineLength cur.ahead)

@[simp] theorem skip_zero (cur : Cursor) : cur.skip 0 = cur := rfl

theorem skip_skip (n m : Nat) (cur : Cursor) : (cur.skip n).skip m = cur.skip (n + m) := by
  induction n generalizing cur with
  | zero => simp [skip]
  | succ n ih => rw [skip, ih, Nat.succ_add, skip]

theorem advance_ahead (cur : Cursor) : cur.advance.ahead = cur.ahead.tail := by
  unfold advance
  split
  · next empty => simp [empty]
  · next ahead => simp [ahead]

theorem skip_ahead (n : Nat) (cur : Cursor) : (cur.skip n).ahead = cur.ahead.drop n := by
  induction n generalizing cur with
  | zero => rfl
  | succ n ih => rw [skip, ih, advance_ahead, List.drop_tail]

/-- Whether the current line holds this delimiter's text and otherwise blanks. -/
def atLineOf (cur : Cursor) (d : Delimiter) : Bool := !cur.content && d.fillsLine cur.ahead

/-- The characters from one place to a later one. -/
def upTo (cur stop : Cursor) : List Char := cur.ahead.take (stop.index - cur.index)

/-- The cursor that stands between two parts of a script, told from these alone. -/
def between (passed ahead : List Char) : Cursor where
  ahead := ahead
  index := passed.length
  offset := byteSize passed
  line := passed.count '\n' + 1
  content := (passed.reverse.takeWhile (· != '\n')).any (!isBlank ·)

theorem start_eq_between (script : List Char) : start script = between [] script := rfl

theorem advance_between (passed : List Char) (c : Char) (rest : List Char) :
    (between passed (c :: rest)).advance = between (passed ++ [c]) rest := by
  by_cases h : c = '\n'
  · subst h
    simp [between, advance, byteSize_append]
  · simp [between, advance, byteSize_append, h, Bool.or_comm]

theorem skip_between (n : Nat) (passed ahead : List Char) :
    (between passed ahead).skip n = between (passed ++ ahead.take n) (ahead.drop n) := by
  induction n generalizing passed ahead with
  | zero => simp [skip]
  | succ n ih =>
    cases ahead with
    | nil =>
      have h : (between passed []).advance = between passed [] := rfl
      rw [skip, h, ih]
      simp
    | cons c rest =>
      rw [skip, advance_between, ih]
      simp

theorem skip_text (passed text ahead : List Char) :
    (between passed (text ++ ahead)).skip text.length = between (passed ++ text) ahead := by
  rw [skip_between, List.take_left, List.drop_left]

theorem upTo_between (passed text ahead : List Char) :
    (between passed (text ++ ahead)).upTo (between (passed ++ text) ahead) = text := by
  simp [upTo, between]

end Cursor

end SqlBoundary
