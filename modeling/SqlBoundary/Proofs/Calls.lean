import Mathlib.Data.List.Basic
import SqlBoundary.Proofs.Composition
import SqlBoundary.Proofs.Reachable

/-!
# Between calls

What a session keeps from one call to the next, whatever was asked of it before and however
that ended. A call that succeeds leaves no block open and the script's own delimiter active;
a call that fails may leave both, and the next one starts from there. Once the end of the
script has been met, nothing changes any more.

Which delimiter is the script's own is told from the directives that have been read, and not
from what the session remembers of them.
-/

namespace SqlBoundary

open Text

/-- What can be asked of a session. -/
inductive Call
  | next
  | iterate
deriving DecidableEq

namespace Session

variable {s t u : Session} {draft e f : Option Draft} {d : Draft} {statement : Statement}
variable {result : Except Fault (Option Statement)} {bound : List Char} {c : Call}

def answer (s : Session) : Call → Session × Except Fault (Option Statement)
  | .next => s.next
  | .iterate => s.iterate

/-- Iteration that has come to its end does not read the script any more. -/
def Reads (s : Session) : Call → Prop
  | .next => True
  | .iterate => s.exhausted = false

/-- The session that a number of calls leave behind. -/
def after (s : Session) : List Call → Session
  | [] => s
  | c :: later => (s.answer c).1.after later

theorem after_append (calls later : List Call) :
    s.after (calls ++ later) = (s.after calls).after later := by
  induction calls generalizing s with
  | nil => rfl
  | cons c calls ih => exact ih

section traced

variable {α : Type} (tell : Session → Option Draft → Option α)

/-- What is told of the passes that are made while reading on with a draft. -/
def traced : List Char → Session → Option Draft → List α
  | bound, s, draft =>
    match s.pass draft with
    | .more t e =>
      match bound with
      | [] => (tell s draft).toList
      | _ :: bound => (tell s draft).toList ++ traced bound t e
    | .found _ _ => []
    | .finished _ => []
    | .failed _ _ => []

def tracedCall (s : Session) : Call → List α
  | .next => traced tell s.cursor.ahead s none
  | .iterate => if s.exhausted then [] else traced tell s.cursor.ahead s none

def tracedCalls (s : Session) : List Call → List α
  | [] => []
  | c :: later => s.tracedCall tell c ++ (s.answer c).1.tracedCalls later

theorem tracedCalls_append (s : Session) (calls later : List Call) :
    s.tracedCalls tell (calls ++ later) =
      s.tracedCalls tell calls ++ (s.after calls).tracedCalls tell later := by
  induction calls generalizing s with
  | nil => rfl
  | cons c calls ih =>
    rw [List.cons_append, tracedCalls, tracedCalls, ih, List.append_assoc]
    rfl

end traced

/-- The delimiter that the next pass sets, if it takes a directive. -/
def setting? (s : Session) (draft : Option Draft) : Option Delimiter :=
  match s.cursor.ahead with
  | [] => none
  | c :: rest =>
    if (s.gap? draft c).isSome then none
    else match s.begin draft with
      | .error _ => none
      | .ok (u, d) =>
        match u.dialect.token u.context.startsWord c rest with
        | .text _ => none
        | .symbol _ => none
        | .word =>
          if u.mayDirect d then
            match u.directive? with
            | .ok delimiter => delimiter
            | .error _ => none
          else none

theorem setting?_of_gap {x : Char} {rest : List Char} {g : Gap}
    (ahead : s.cursor.ahead = x :: rest) (found : s.gap? draft x = some g) :
    s.setting? draft = none := by
  simp [setting?, ahead, found]

theorem setting?_of_begin {x : Char} {rest : List Char} (ahead : s.cursor.ahead = x :: rest)
    (solid : s.gap? draft x = none) (begun : s.begin draft = .ok (u, d)) :
    s.setting? draft =
      match u.dialect.token u.context.startsWord x rest with
      | .text _ => none
      | .symbol _ => none
      | .word =>
        if u.mayDirect d then
          match u.directive? with
          | .ok delimiter => delimiter
          | .error _ => none
        else none := by
  simp [setting?, ahead, solid, begun]

/-- A step sets the delimiter of the script by a directive, and keeps it otherwise. -/
theorem step_setting (h : Step s draft t e) :
    t.scriptDelimiter = (s.setting? draft).getD s.scriptDelimiter := by
  cases h with
  | gap ahead found => rw [setting?_of_gap ahead found]; rfl
  | delimiter ahead found => rw [setting?_of_gap ahead found]; rfl
  | text ahead solid begun token =>
    rw [setting?_of_begin ahead solid begun, token]
    obtain ⟨kind, rfl⟩ := begin_ok begun
    rfl
  | symbol ahead solid begun token =>
    rw [setting?_of_begin ahead solid begun, token]
    obtain ⟨kind, rfl⟩ := begin_ok begun
    rw [countParen_eq]
    rfl
  | directive ahead solid begun token may line =>
    simp only [setting?_of_begin ahead solid begun, token, may, line]
    rfl
  | @word _ _ _ _ u _ x ahead solid begun token plain taken =>
    have none : s.setting? draft = none := by
      rw [setting?_of_begin ahead solid begun, token]
      by_cases may : u.mayDirect x = true
      · simp only [may, plain may, if_true]
      · simp only [may, if_false, Bool.false_eq_true]
    rw [none]
    obtain ⟨kind, rfl⟩ := begin_ok begun
    obtain ⟨-, blocks, lastClosed, warnings, rfl⟩ := takeWord_more taken
    rw [classify_eq]
    rfl

/-- The delimiters that directives set during these calls, in the order of the script. -/
def settings (s : Session) (calls : List Call) : List Delimiter := s.tracedCalls setting? calls

/-- A call that reads leads where `next` leads, but for the mark that iteration leaves. -/
theorem answer_of_reads (reads : s.Reads c) :
    ∃ exhausted, s.answer c = ({ s.next.1 with exhausted }, s.next.2) := by
  cases c with
  | next => exact ⟨s.next.1.exhausted, rfl⟩
  | iterate =>
    have live : s.exhausted = false := reads
    simp only [answer, iterate, live, Bool.false_eq_true, if_false]
    rcases s.next with ⟨t, fault | _ | statement⟩
    · exact ⟨true, rfl⟩
    · exact ⟨true, rfl⟩
    · exact ⟨t.exhausted, rfl⟩

theorem answer_of_silent (silent : ¬ s.Reads c) : s.answer c = (s, .ok none) := by
  cases c with
  | next => exact absurd trivial silent
  | iterate =>
    have ended : s.exhausted = true := Bool.of_not_eq_false silent
    simp only [answer, iterate, ended, if_true]

theorem tracedCall_of_reads {α : Type} {tell : Session → Option Draft → Option α}
    (reads : s.Reads c) : s.tracedCall tell c = traced tell s.cursor.ahead s none := by
  cases c with
  | next => rfl
  | iterate =>
    have live : s.exhausted = false := reads
    simp only [tracedCall, live, Bool.false_eq_true, if_false]

theorem tracedCall_of_silent {α : Type} {tell : Session → Option Draft → Option α}
    (silent : ¬ s.Reads c) : s.tracedCall tell c = [] := by
  cases c with
  | next => exact absurd trivial silent
  | iterate =>
    have ended : s.exhausted = true := Bool.of_not_eq_false silent
    simp only [tracedCall, ended, if_true]

/-- What steps and answers keep is kept by a call, also where it stalls: the draft is dropped
there, and nothing else. -/
theorem answer_keeps {P : Session → Prop} (c : Call)
    (mark : ∀ t exhausted, P t → P { t with exhausted })
    (steps : ∀ t e u f, Step t e u f → P t → P u)
    (answers : ∀ t e u r, (Session.pass t e).answer? = some (u, r) → P t → P u)
    (holds : P s) : P (s.answer c).1 := by
  have next : P s.next.1 := by
    obtain ⟨u, f, led, answer | stalled⟩ := passes_of_run (rfl : run s.cursor.ahead s none = _)
    · exact answers u f _ _ answer (passes_keep steps led holds)
    · have same : s.next.1 = u := (Prod.mk.inj stalled).1
      rw [same]
      exact passes_keep steps led holds
  by_cases reads : s.Reads c
  · obtain ⟨exhausted, same⟩ := answer_of_reads reads
    rw [same]
    exact mark s.next.1 exhausted next
  · rw [answer_of_silent reads]
    exact holds

theorem answer_placed {script : List Char} (c : Call) (placed : Placed script s) :
    Placed script (s.answer c).1 := by
  refine answer_keeps c (fun _ _ h => h) ?_ ?_ placed
  · intro t e u f step placed
    obtain ⟨n, moved⟩ := step_skip step
    exact placed.skip moved
  · intro t e u r answer placed
    obtain ⟨n, _, _, rfl, -⟩ := answer_frame answer
    exact placed.skip rfl

section traced

variable {α β : Type} {tell : Session → Option Draft → Option α} (value : Session → β)
variable {change : β → α → β}

theorem traced_of_answer (h : (s.pass draft).answer? = some (t, result)) :
    traced tell bound s draft = [] := by
  unfold traced
  cases pass : s.pass draft with
  | more => simp [pass, Pass.answer?] at h
  | found => rfl
  | finished => rfl
  | failed => rfl

/-- A value that steps change by what is told of them, and answers not at all, is told from
what is traced. -/
theorem run_traced
    (steps : ∀ t e u f, Step t e u f → value u = (tell t e).toList.foldl change (value t))
    (answers : ∀ t e u r, (Session.pass t e).answer? = some (u, r) → value u = value t)
    (bound : List Char) (s : Session) (draft : Option Draft) :
    value (run bound s draft).1 = (traced tell bound s draft).foldl change (value s) := by
  induction bound generalizing s draft with
  | nil =>
    cases answer : (s.pass draft).answer? with
    | some r =>
      rw [run_of_answer answer, traced_of_answer answer]
      exact answers s draft _ _ answer
    | none =>
      obtain ⟨t, e, pass⟩ := Pass.more_of_answer? answer
      rw [run, traced, pass]
      exact steps s draft t e (step_of_pass pass)
  | cons x bound ih =>
    cases answer : (s.pass draft).answer? with
    | some r =>
      rw [run_of_answer answer, traced_of_answer answer]
      exact answers s draft _ _ answer
    | none =>
      obtain ⟨t, e, pass⟩ := Pass.more_of_answer? answer
      rw [run_of_more x pass, traced, pass]
      dsimp only
      rw [List.foldl_append, ← steps s draft t e (step_of_pass pass)]
      exact ih t e

theorem answer_traced (mark : ∀ t exhausted, value { t with exhausted } = value t)
    (steps : ∀ t e u f, Step t e u f → value u = (tell t e).toList.foldl change (value t))
    (answers : ∀ t e u r, (Session.pass t e).answer? = some (u, r) → value u = value t)
    (s : Session) (c : Call) :
    value (s.answer c).1 = (s.tracedCall tell c).foldl change (value s) := by
  by_cases reads : s.Reads c
  · obtain ⟨exhausted, same⟩ := answer_of_reads reads
    rw [same, mark, tracedCall_of_reads reads]
    exact run_traced value steps answers s.cursor.ahead s none
  · rw [answer_of_silent reads, tracedCall_of_silent reads]
    rfl

theorem after_traced (mark : ∀ t exhausted, value { t with exhausted } = value t)
    (steps : ∀ t e u f, Step t e u f → value u = (tell t e).toList.foldl change (value t))
    (answers : ∀ t e u r, (Session.pass t e).answer? = some (u, r) → value u = value t)
    (s : Session) (calls : List Call) :
    value (s.after calls) = (s.tracedCalls tell calls).foldl change (value s) := by
  induction calls generalizing s with
  | nil => rfl
  | cons c later ih =>
    rw [after, tracedCalls, List.foldl_append, ← answer_traced value mark steps answers]
    exact ih (s.answer c).1

end traced

theorem after_placed {script : List Char} (calls : List Call) (placed : Placed script s) :
    Placed script (s.after calls) := by
  induction calls generalizing s with
  | nil => exact placed
  | cons c later ih => exact ih (answer_placed c placed)

theorem foldl_last (later : List Delimiter) (x : Delimiter) :
    later.foldl (fun _ y => y) x = later.getLastD x := by
  induction later generalizing x with
  | nil => rfl
  | cons y later ih =>
    rw [List.foldl_cons, List.getLastD_cons]
    exact ih y

/-- The script's own delimiter is the one that was set last. -/
theorem after_setting (s : Session) (calls : List Call) :
    (s.after calls).scriptDelimiter = (s.settings calls).getLastD s.scriptDelimiter := by
  rw [← foldl_last]
  refine after_traced Session.scriptDelimiter (fun _ _ => rfl) ?_ ?_ s calls
  · intro t e u f step
    rw [step_setting step]
    cases t.setting? e <;> rfl
  · intro t e u r answer
    obtain ⟨n, _, _, rfl, -⟩ := answer_frame answer
    rfl

theorem next_of_answer (reads : s.Reads c) (h : s.answer c = (t, result)) :
    ∃ v exhausted, s.next = (v, result) ∧ t = { v with exhausted } := by
  obtain ⟨exhausted, same⟩ := answer_of_reads reads
  rw [h] at same
  obtain ⟨rfl, rfl⟩ := Prod.mk.inj same
  exact ⟨s.next.1, exhausted, rfl, rfl⟩

/-- Where a call succeeds, every block is closed and the script's own delimiter is active. -/
theorem answer_closed {found : Option Statement} (reads : s.Reads c)
    (h : s.answer c = (t, .ok found)) :
    t.context.blocks = [] ∧ t.context.delimiter = t.scriptDelimiter := by
  obtain ⟨v, exhausted, next, rfl⟩ := next_of_answer reads h
  cases found with
  | none =>
    obtain ⟨u, f, -, finished⟩ := passes_of_finished next
    obtain ⟨-, -, closed, rfl⟩ := pass_finished finished
    exact ⟨closed, rfl⟩
  | some statement =>
    obtain ⟨u, f, -, found⟩ := passes_of_found next
    have closed := outside_of_found found
    obtain ⟨n, rfl⟩ := restored_of_found found
    exact ⟨closed, rfl⟩

/-- An inline delimiter ends a statement only where no parenthesis is left to close. -/
theorem level_of_delimited (delimited : s.Delimited t statement)
    (inline : statement.delimiter.aloneOnLine = false) : t.context.parens ≤ 0 := by
  obtain ⟨u, f, passes, found, more⟩ := delimited
  obtain ⟨d, rfl, rfl, ⟨_, _, n, -, gap, rfl⟩ | ⟨empty, -⟩⟩ := pass_found found
  · have inline : u.context.delimiter.aloneOnLine = false := inline
    change u.context.parens ≤ 0
    rcases (delimiterLength?_eq_some (delimiter_of_gap? gap).2).2 with ⟨alone, -⟩ | ⟨none, -⟩
    · rw [inline] at alone
      cases alone
    · exact none
  · exact absurd empty more

/-- The end of the script has been met, and the session is at rest there. -/
structure AtRest (s : Session) : Prop where
  ahead : s.cursor.ahead = []
  closed : s.context.blocks = []
  own : s.context.delimiter = s.scriptDelimiter

theorem AtRest.next (rest : s.AtRest) : s.next = (s, .ok none) := by
  have pass : s.pass none = .finished s := by
    rw [pass_of_end rest.ahead, finish_outside rest.closed, restored_of_own rest.own]
  exact read_of_answer (by rw [pass]; rfl)

theorem AtRest.answer (rest : s.AtRest) (c : Call) :
    (s.answer c).1.AtRest ∧ (s.answer c).1.context = s.context ∧ (s.answer c).2 = .ok none := by
  by_cases reads : s.Reads c
  · obtain ⟨exhausted, same⟩ := answer_of_reads reads
    rw [same, rest.next]
    exact ⟨⟨rest.ahead, rest.closed, rest.own⟩, rfl, rfl⟩
  · rw [answer_of_silent reads]
    exact ⟨rest, rfl, rfl⟩

theorem AtRest.after (rest : s.AtRest) (later : List Call) :
    (s.after later).AtRest ∧ (s.after later).context = s.context := by
  induction later generalizing s with
  | nil => exact ⟨rest, rfl⟩
  | cons c later ih =>
    obtain ⟨still, context, -⟩ := rest.answer c
    obtain ⟨end_, same⟩ := ih still
    exact ⟨end_, same.trans context⟩

/-- What a call that succeeds leaves behind, where `own` is the delimiter of the script. -/
structure Settled (script : List Char) (own : Delimiter) (s t : Session)
    (found : Option Statement) : Prop where
  closed : t.context.blocks = []
  own : t.context.delimiter = own
  level : ParensFit script → ∀ statement, found = some statement → s.Delimited t statement →
    statement.delimiter.aloneOnLine = false → t.context.parens = 0
  ended : found = none → t.cursor = .between script []
  quiet : found = none → ∀ later c,
    ((t.after later).answer c).2 = .ok none ∧
      ((t.after later).answer c).1.context = t.context

end Session

end SqlBoundary
