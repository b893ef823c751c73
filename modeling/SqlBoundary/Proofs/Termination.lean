import Mathlib.Data.List.Infix
import SqlBoundary.Proofs.Framed
import SqlBoundary.Proofs.Reachable

/-!
# Reading comes to an end

A pass that goes on takes a character, unless the active delimiter cuts a word down to
nothing. An inline delimiter that does not begin like a word never does that, and one that
stands alone on its line cuts no word at all. Where only such delimiters become active, each
call decides after as many passes as there are bytes ahead, and one more, and a script is
split after finitely many calls.

`Decides` and `Splits` say this of passes and calls alone. They count nothing down, so that
what they describe may as well go on for ever.
-/

namespace SqlBoundary

open Text

/-- Either the delimiter stands alone on its line, or it does not begin like a word. -/
def Delimiter.SparesWords (d : Delimiter) (dialect : Dialect) : Prop :=
  d.aloneOnLine = false → d.Wordless dialect

instance (d : Delimiter) (dialect : Dialect) : Decidable (d.SparesWords dialect) :=
  inferInstanceAs (Decidable (d.aloneOnLine = false → d.Wordless dialect))

namespace Session

variable {s t u : Session} {draft e f : Option Draft} {d : Draft} {items : List Item}
variable {dialect : Dialect} {delimiter : Delimiter} {script : String}

/-- Inside a statement no delimiter becomes active that cuts words down to nothing. -/
theorem step_spares (h : Step s draft t (some d))
    (spares : s.context.delimiter.SparesWords dialect) :
    t.context.delimiter.SparesWords dialect := by
  rcases step_delimiter h with same | slash | ⟨none, -⟩
  · rw [same]
    exact spares
  · rw [slash]
    rintro ⟨⟩
  · cases none

/-- A pass that goes on takes a character. -/
theorem step_shortens (h : Step s draft t e) (classified : s.Classified draft)
    (typed : s.Typed draft) (spares : s.context.delimiter.SparesWords s.dialect) :
    t.cursor.ahead.length < s.cursor.ahead.length := by
  rcases step_advances h classified with shorter | ⟨d, rfl, stuck⟩
  · exact shorter
  · have spares' : t.context.delimiter.SparesWords t.dialect := by
      rw [step_dialect h]
      exact step_spares h spares
    exact absurd stuck (not_stuck_of_wordless (step_typed h typed rfl) spares')

theorem length_le_byteSize (cs : List Char) : cs.length ≤ byteSize cs := by
  induction cs with
  | nil => exact Nat.le_refl 0
  | cons c rest ih =>
    have pos := c.utf8Size_pos
    rw [List.length_cons, byteSize_cons]
    omega

/-- What shortens the text ahead moves the cursor on, in bytes. -/
theorem offset_lt_of_shorter {script : List Char} (hs : Placed script s) (ht : Placed script t)
    (shorter : t.cursor.ahead.length < s.cursor.ahead.length)
    (moved : ∃ n, t.cursor = s.cursor.skip n) : s.cursor.offset < t.cursor.offset := by
  obtain ⟨n, moved⟩ := moved
  have ahead : t.cursor.ahead = s.cursor.ahead.drop n := by rw [moved, Cursor.skip_ahead]
  have split : byteSize s.cursor.ahead =
      byteSize (s.cursor.ahead.take n) + byteSize t.cursor.ahead := by
    rw [ahead, ← byteSize_append, List.take_append_drop]
  have taken : 0 < (s.cursor.ahead.take n).length := by
    rw [ahead, List.length_drop] at shorter
    rw [List.length_take]
    omega
  have bytes := length_le_byteSize (s.cursor.ahead.take n)
  have whole := hs.offset
  have whole' := ht.offset
  omega

/-- Passes decide, and this many of them are made. -/
inductive Decides :
    Nat → Session → Option Draft → Session × Except Fault (Option Statement) → Prop
  | last {s : Session} {draft : Option Draft} {r : Session × Except Fault (Option Statement)}
      (answer : (s.pass draft).answer? = some r) : Decides 1 s draft r
  | more {n : Nat} {s t : Session} {draft e : Option Draft}
      {r : Session × Except Fault (Option Statement)}
      (pass : s.pass draft = .more t e) (later : Decides n t e r) : Decides (n + 1) s draft r

/-- Calls that are made one after another until one gives no statement. -/
inductive Splits : Session → Except Fault (List Statement) → Prop
  | none {s t : Session} {n : Nat} (call : Decides n s none (t, .ok none)) : Splits s (.ok [])
  | fault {s t : Session} {n : Nat} {fault : Fault}
      (call : Decides n s none (t, .error fault)) : Splits s (.error fault)
  | statement {s t : Session} {n : Nat} {statement : Statement}
      {result : Except Fault (List Statement)}
      (call : Decides n s none (t, .ok (some statement))) (later : Splits t result) :
      Splits s (result.map (statement :: ·))

theorem decides_of_spares (classified : s.Classified draft) (typed : s.Typed draft)
    (spares : ∀ t e, Passes s draft t e → t.context.delimiter.SparesWords s.dialect) :
    ∃ n, n ≤ s.cursor.ahead.length + 1 ∧ Decides n s draft (s.read draft) := by
  induction size : s.cursor.ahead.length using Nat.strong_induction_on generalizing s draft with
  | _ length ih =>
    cases answer : (s.pass draft).answer? with
    | some r =>
      rw [read_of_answer answer]
      exact ⟨1, by omega, .last answer⟩
    | none =>
      obtain ⟨t, e, pass⟩ := Pass.more_of_answer? answer
      have step := step_of_pass pass
      have shorter := step_shortens step classified typed (spares s draft (.refl s draft))
      have spares' : ∀ u f, Passes t e u f → u.context.delimiter.SparesWords t.dialect := by
        intro u f passes
        rw [step_dialect step]
        exact spares u f (.step step passes)
      obtain ⟨n, few, later⟩ := ih t.cursor.ahead.length (by omega)
        (step_classified step classified) (step_typed step typed) spares' rfl
      rw [read_of_more classified pass]
      exact ⟨n + 1, by omega, .more pass later⟩

theorem splits_of_spares (dialect_ : s.dialect = dialect) (live : s.exhausted = false)
    {found : List Statement} (here : Visits dialect delimiter script s none found)
    (spares : ∀ t e later, Visits dialect delimiter script t e later →
      t.context.delimiter.SparesWords dialect) :
    Splits s s.remaining.2 := by
  induction size : s.cursor.ahead.length using Nat.strong_induction_on generalizing s found with
  | _ length ih =>
    obtain ⟨n, -, call⟩ := decides_of_spares (classified_none s) (typed_none s)
      (fun t e passes => dialect_ ▸ spares t e found (visits_passes here passes))
    change Decides n s none s.next at call
    rcases next : s.next with ⟨t, fault | _ | statement⟩
    · rw [next] at call
      rw [remaining_of_error live next]
      exact .fault call
    · rw [next] at call
      rw [remaining_of_none live next]
      exact .none call
    · rw [next] at call
      obtain ⟨u, f, passes, pass⟩ := passes_of_found next
      obtain ⟨sameDialect, sameLive⟩ := passes_same passes
      have later := visits_passes here passes
      have answer : (u.pass f).answer? = some (t, .ok (some statement)) := by rw [pass]; rfl
      obtain ⟨_, _, _, kept, -⟩ := answer_frame answer
      have dialect' : t.dialect = dialect := by rw [kept, ← dialect_, ← sameDialect]
      have live' : t.exhausted = false := by rw [kept, ← live, ← sameLive]
      have shorter := next_shortens next
      rw [remaining_of_found live next]
      exact .statement call (ih t.cursor.ahead.length (by omega) dialect' live'
        (.found later pass) rfl)

/-- The starting delimiter, that of the stored units of Oracle, or one that some line of the
script sets. -/
inductive Offered (delimiter : Delimiter) (script : List Char) : Delimiter → Prop
  | starting : Offered delimiter script delimiter
  | slash : Offered delimiter script .slash
  | directive {x : Delimiter} {rest : List Char} (line : rest <:+ script)
      (sets : Delimiter.ofDirective? (currentLine rest) = .ok (some x)) :
      Offered delimiter script x

/-- Whether all these delimiters spare words is seen on the lines of the script. -/
theorem Offered.sparesWords {script : List Char} {x : Delimiter}
    (offered : Offered delimiter script x) (starting : delimiter.SparesWords dialect)
    (lines : ∀ rest ∈ script.tails, ∀ y,
      Delimiter.ofDirective? (currentLine rest) = .ok (some y) → y.SparesWords dialect) :
    x.SparesWords dialect := by
  cases offered with
  | starting => exact starting
  | slash => rintro ⟨⟩
  | directive line sets => exact lines _ ((List.mem_tails _ _).mpr line) x sets

theorem step_offered {script : List Char} (h : Step s draft t e) (placed : Placed script s)
    (active : Offered delimiter script s.context.delimiter)
    (own : Offered delimiter script s.scriptDelimiter) :
    Offered delimiter script t.context.delimiter ∧ Offered delimiter script t.scriptDelimiter := by
  have own' : Offered delimiter script t.scriptDelimiter := by
    rcases step_sets h with same | ⟨x, same, sets⟩
    · rw [same]
      exact own
    · obtain ⟨passed, whole, -⟩ := placed
      rw [same]
      exact .directive ⟨passed, whole.symm⟩ sets
  refine ⟨?_, own'⟩
  rcases step_delimiter h with same | slash | ⟨-, restored⟩
  · rw [same]
    exact active
  · rw [slash]
    exact .slash
  · rw [restored]
    exact own'

theorem visits_offered {found : List Statement}
    (h : Visits dialect delimiter script s draft found) :
    Offered delimiter script.toList s.context.delimiter ∧
      Offered delimiter script.toList s.scriptDelimiter := by
  induction h with
  | start => exact ⟨.starting, .starting⟩
  | step before step ih => exact step_offered step (visits_place before) ih.1 ih.2
  | found before pass ih =>
    obtain ⟨n, rfl⟩ := restored_of_found pass
    exact ⟨ih.2, ih.2⟩

end Session

open Session

/-- Reading comes to an end. A pass that goes on moves the cursor on, and not beyond the
script, wherever the active delimiter spares words. Where all delimiters that become active do
so, a call decides after at most as many passes as there are bytes left, and one more, and the
script is split. -/
theorem reading_ends (v : Vendor) (d : Delimiter) (script : String) :
    (∀ s draft items t e, Reached v.dialect d script s draft items →
        s.context.delimiter.SparesWords v.dialect → s.pass draft = .more t e →
        s.cursor.offset < t.cursor.offset ∧ t.cursor.offset ≤ script.utf8ByteSize) ∧
      (∀ s items, Reached v.dialect d script s none items →
        (∀ t e, Passes s none t e → t.context.delimiter.SparesWords v.dialect) →
        ∃ n, n ≤ script.utf8ByteSize - s.cursor.offset + 1 ∧ Decides n s none s.next) ∧
      ((∀ s draft found, Visits v.dialect d script s draft found →
          s.context.delimiter.SparesWords v.dialect) →
        Splits (ofScript v.dialect d script) (splitFrom v.dialect d script)) := by
  have size : byteSize script.toList = script.utf8ByteSize := by
    rw [byteSize_eq_utf8ByteSize, String.ofList_toList]
  refine ⟨?_, ?_, ?_⟩
  · intro s draft items t e reached spares pass
    have step := step_of_pass pass
    have placed := reached_placed reached
    obtain ⟨n, moved⟩ := step_skip step
    have placed' : Placed script.toList t := placed.skip moved
    rw [← dialect_of_reached reached] at spares
    have shorter := step_shortens step (reached_classified reached) (reached_typed reached) spares
    have within := placed'.offset
    constructor
    · exact offset_lt_of_shorter placed placed' shorter ⟨n, moved⟩
    · omega
  · intro s items reached spares
    rw [← dialect_of_reached reached] at spares
    obtain ⟨n, few, call⟩ := decides_of_spares (classified_none s) (typed_none s) spares
    have bytes := length_le_byteSize s.cursor.ahead
    have whole := (reached_placed reached).offset
    exact ⟨n, by omega, call⟩
  · intro spares
    exact splits_of_spares rfl rfl .start spares

/-- A directive, and a statement that ends with a word cut by the delimiter. -/
theorem reading_ends_directive :
    let s := ofScript .mysql .semicolon "DELIMITER //\nBEGIN SELECT 'a'; END//\n"
    (∃ t, s.pass none = .more t none ∧ s.cursor.offset < t.cursor.offset ∧
        t.cursor.offset ≤ 37) ∧
      (∃ n, n ≤ 38 ∧ Decides n s none s.next) ∧
      Splits s (.ok [⟨2, 13, 34, "BEGIN SELECT 'a'; END", .inline "//"⟩]) := by
  intro s
  let script := "DELIMITER //\nBEGIN SELECT 'a'; END//\n"
  let t := (follow 1 s none []).1
  obtain ⟨advances, decides, splits⟩ := reading_ends .mysql .semicolon script
  have sets : (script.toList.tails.all fun rest =>
      (Delimiter.ofDirective? (currentLine rest)).toOption.join.all fun x =>
        decide (x.SparesWords Vendor.mysql.dialect)) = true := by decide +kernel
  have lines : ∀ rest ∈ script.toList.tails, ∀ y,
      Delimiter.ofDirective? (currentLine rest) = .ok (some y) →
        y.SparesWords Vendor.mysql.dialect := by
    intro rest mem y line
    have here := List.all_eq_true.mp sets rest mem
    rw [line] at here
    exact of_decide_eq_true here
  have spares : ∀ s draft found, Visits Vendor.mysql.dialect .semicolon script s draft found →
      s.context.delimiter.SparesWords Vendor.mysql.dialect := by
    intro s draft found visits
    exact (visits_offered visits).1.sparesWords (by decide) lines
  have first : s.pass none = .more t none := by decide +kernel
  have size : script.utf8ByteSize = 37 := by decide +kernel
  have result : splitFrom Vendor.mysql.dialect .semicolon script =
      .ok [⟨2, 13, 34, "BEGIN SELECT 'a'; END", .inline "//"⟩] := by decide +kernel
  refine ⟨⟨t, first, ?_⟩, ?_, ?_⟩
  · rw [← size]
    exact advances s none [] t none .start (spares s none [] .start) first
  · have call := decides s [] .start
      (fun t e passes => spares t e [] (visits_passes .start passes))
    rw [size] at call
    exact call
  · rw [← result]
    exact splits spares

end SqlBoundary
