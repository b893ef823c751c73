import Mathlib.Data.List.Basic
import SqlBoundary.Proofs.Extension
import SqlBoundary.Proofs.Shift

/-!
# Scripts that come one after another

A script that is cut after one of its lines can be read in two parts, if the first part leaves
no statement, block or parenthesis open. `splitFrom_append` says that nothing else leaks from
one part into the other: the first part is read as if nothing came after it, and the rest as
if it were a script that starts with the delimiter then active.

Oracle is left out, and so is an `IF` in the first part for MySQL: there it may depend on the
rest of the script whether a word opens a block.
-/

namespace SqlBoundary

open Text

namespace Session

variable {s t u : Session} {f : Option Draft} {d : Draft} {p : List Char} {statement : Statement}
variable {statements : List Statement} (after : List Char)

/-- The next statement is found before a delimiter, not at the end of the script. -/
def Delimited (s t : Session) (statement : Statement) : Prop :=
  ∃ u f, Passes s none u f ∧ u.pass f = .found t statement ∧ u.cursor.ahead ≠ []

theorem upTo_of_underway {x : Delimiter} {ahead : List Char}
    (h : Underway x p ahead u (some d)) :
    u.cursor.index - d.start.index ≤ d.start.ahead.length := by
  cases h with
  | inside gap text split place start =>
    rw [start, place]
    simp only [Cursor.between, List.length_append]
    omega

theorem cut_extend {stop : Cursor} (h : stop.index - d.start.index ≤ d.start.ahead.length) :
    (s.extend after).cut (d.extend after) (stop.extend after) = s.cut d stop := by
  have same := Cursor.upTo_extend after h
  simp only [cut, Draft.extend, same]
  rfl

theorem found_extend {x : Delimiter} {ahead : List Char} (hd : u.Detached)
    (underway : Underway x p ahead u f) (more : u.cursor.ahead ≠ [])
    (found : u.pass f = .found t statement) :
    (u.extend after).pass (f.map (·.extend after)) = .found (t.extend after) statement := by
  obtain ⟨d, rfl, rfl, ⟨c, rest, n, head, gap, rfl⟩ | ⟨empty, -⟩⟩ := pass_found found
  · have same : (u.extend after).gap? (some (d.extend after)) c = some (.delimiter n) :=
      delimiter_extend after hd head gap
    have moved := skip_extend after (delimiter_le gap)
    have cut := cut_extend after (s := u) (upTo_of_underway underway)
    rw [Option.map_some, pass_of_gap (cons_extend after head) same, ← cut]
    simp only [passGap, moved, endStatement_some]
    rfl
  · exact absurd empty more

theorem next_extend (idle : s.Idle p) (hd : s.Detached) (delimited : s.Delimited t statement) :
    (s.extend after).next = (t.extend after, .ok (some statement)) := by
  obtain ⟨u, f, passes, found, more⟩ := delimited
  have kept := passes_kept passes (kept_of_idle idle)
  have detached := passes_detached passes hd
  have continues : u.Continues f := by
    obtain ⟨d, rfl, -, ⟨c, rest, n, head, gap, -⟩ | ⟨empty, -⟩⟩ := pass_found found
    · exact Or.inr ⟨c, by rw [head]; exact List.mem_cons_self, (delimiter_of_gap? gap).1⟩
    · exact absurd empty more
  have answer := found_extend after detached kept.underway more found
  calc (s.extend after).next
      = (u.extend after).read (f.map (·.extend after)) :=
        read_of_passes (passes_extend after passes hd continues) (classified_none _)
    _ = (t.extend after, .ok (some statement)) := read_of_answer (by rw [answer]; rfl)

theorem detached_of_delimited (hd : s.Detached) (delimited : s.Delimited t statement) :
    t.Detached := by
  obtain ⟨u, f, passes, found, -⟩ := delimited
  have detached := passes_detached passes hd
  obtain ⟨n, rfl⟩ := restored_of_found found
  refine detached.of_suffix rfl ?_ detached.script detached.script
  change (u.cursor.skip n).ahead <:+ u.cursor.ahead
  rw [Cursor.skip_ahead]
  exact List.drop_suffix n _

/-- Where the text ahead holds no further statement, all that remains is its end. -/
structure Ended (s t : Session) (p : List Char) : Prop where
  cursor : t.cursor = .between (p ++ s.cursor.ahead) []
  closed : t.context.blocks = []
  own : t.context.delimiter = t.scriptDelimiter
  dialect : t.dialect = s.dialect
  exhausted : t.exhausted = s.exhausted

theorem restored_of_own (own : s.context.delimiter = s.scriptDelimiter) : s.restored = s := by
  have same : s.context.setDelimiter s.scriptDelimiter = s.context := by
    rw [← own]
    rfl
  rw [restored, same]

theorem ended_of_none (idle : s.Idle p) (hd : s.Detached) (h : s.next = (t, .ok none)) :
    Ended s t p ∧ (s.extend after).next = (t.extend after).next := by
  obtain ⟨u, f, passes, finished⟩ := passes_of_finished h
  obtain ⟨dialect, exhausted⟩ := passes_same passes
  have kept := passes_kept passes (kept_of_idle idle)
  obtain ⟨rfl, empty, closed, rfl⟩ := pass_finished finished
  have own : u.context.delimiter = u.scriptDelimiter := by
    rcases kept.owned with own | ⟨held, -⟩
    · exact own
    · cases held
  rw [restored_of_own own]
  constructor
  · refine ⟨?_, closed, own, dialect, exhausted⟩
    cases kept.underway with
    | outside gap split place =>
      rw [empty, List.append_nil] at split
      rw [split, place, empty]
  · exact read_of_passes (passes_extend after passes hd (Or.inl rfl)) (classified_none _)

/-- The next statements are these, each ended by a delimiter, and then there is none. -/
inductive Delivers : Session → List Statement → Session → Prop
  | done {s t : Session} (ends : s.next = (t, .ok none)) : Delivers s [] t
  | statement {s t u : Session} {statement : Statement} {later : List Statement}
      (found : s.next = (t, .ok (some statement))) (delimited : s.Delimited t statement)
      (rest : Delivers t later u) : Delivers s (statement :: later) u

/-- A statement after which text is left has been ended by a delimiter. -/
theorem delimited_of_rest (found : s.next = (t, .ok (some statement)))
    (rest : t.cursor.ahead ≠ []) : s.Delimited t statement := by
  obtain ⟨u, f, passes, last⟩ := passes_of_found found
  refine ⟨u, f, passes, last, ?_⟩
  intro empty
  obtain ⟨d, -, -, ⟨_, _, _, head, -⟩ | ⟨-, -, rfl⟩⟩ := pass_found last
  · rw [empty] at head
    cases head
  · exact rest empty

theorem remaining_of_next (hs : s.exhausted = false) (ht : t.exhausted = false)
    (same : s.next = t.next) : s.remaining = t.remaining := by
  rcases next : t.next with ⟨u, fault | _ | statement⟩
  · rw [remaining_of_error ht next, remaining_of_error hs (same.trans next)]
  · rw [remaining_of_none ht next, remaining_of_none hs (same.trans next)]
  · rw [remaining_of_found ht next, remaining_of_found hs (same.trans next)]

/-- With more text to come, the statements come first and then those of that text. -/
theorem remaining_extend (h : s.Delivers statements t) (idle : s.Idle p)
    (hd : s.Detached) (live : s.exhausted = false) :
    Ended s t p ∧ (s.extend after).remaining =
      ((t.extend after).remaining.1, (t.extend after).remaining.2.map (statements ++ ·)) := by
  induction h generalizing p with
  | @done s t ends =>
    obtain ⟨ended, same⟩ := ended_of_none after idle hd ends
    have spent : (t.extend after).exhausted = false := ended.exhausted.trans live
    rw [remaining_of_next (s := s.extend after) live spent same]
    refine ⟨ended, ?_⟩
    rcases (t.extend after).remaining with ⟨u, fault | later⟩ <;> rfl
  | @statement s t u statement later found delimited rest ih =>
    obtain ⟨gap, text, blanks, closing, segment⟩ := segment_of_found idle found
    obtain ⟨ended, same⟩ := ih segment.idle (detached_of_delimited hd delimited)
      (segment.exhausted.trans live)
    constructor
    · refine ⟨?_, ended.closed, ended.own, ended.dialect.trans segment.dialect,
        ended.exhausted.trans segment.exhausted⟩
      rw [ended.cursor, segment.split]
      simp only [List.append_assoc]
    · rw [remaining_of_found (s := s.extend after) live (next_extend after idle hd delimited), same]
      cases (u.extend after).remaining.2 <;> rfl

/-- At the end of a line outside statements, a session is one that starts here. -/
theorem extend_eq_behind {text : List Char} (cursor : t.cursor = .between text [])
    (line : text = [] ∨ EndsLine text) (closed : t.context.blocks = [])
    (level : t.context.parens = 0) (own : t.context.delimiter = t.scriptDelimiter)
    (live : t.exhausted = false) (b : String) :
    t.extend b.toList = (ofScript t.dialect t.context.delimiter b).behind t text := by
  have fresh : (Cursor.between text []).content = false := by
    rcases line with rfl | ⟨init, rfl⟩
    · rfl
    · simp [Cursor.between]
  have place : t.cursor.extend b.toList = (Cursor.start b.toList).shift text := by
    rw [cursor]
    simp only [Cursor.extend, Cursor.shift, Cursor.start, fresh]
    simp [Cursor.between, Nat.add_comm]
  have context : t.context = (Context.start t.context.delimiter).behind t.context := by
    have start : Context.start t.context.delimiter =
        { t.context with parens := 0, blocks := [], lastClosed := none, kind := .unknown } := rfl
    rw [start, ← closed, ← level]
    rfl
  unfold extend ofScript behind
  rw [place, ← context]
  simp only [own, live, List.map_nil, List.append_nil]

theorem detached_ofScript {v : Vendor} {d : Delimiter} {a : String}
    (unaided : v = .generic ∨ v = .postgres ∨ v = .sqlserver ∨
      v = .mysql ∧ ¬ ['I', 'F'] <:+: upper a.toList)
    (oneLine : '\n' ∉ d.text.toList) (line : a.toList = [] ∨ EndsLine a.toList) :
    (ofScript v.dialect d a).Detached where
  ends := line
  delimiter := oneLine
  script := oneLine
  closers := by
    have closers : ∀ pair ∈ v.dialect.identifierQuotes, pair.2 ≠ '\n' := by
      cases v <;> decide
    exact closers
  grammar := by
    rcases unaided with rfl | rfl | rfl | ⟨rfl, absent⟩
    · exact Or.inl rfl
    · exact Or.inl rfl
    · exact Or.inl rfl
    · exact Or.inr ⟨rfl, absent⟩

end Session

/-- Reading a script in two parts. If the first part gives its statements, each ended by a
delimiter, and leaves no parenthesis open, the whole gives these and then what the rest gives
on its own, all places counted on from the first part. A fault in the rest is the fault of the
whole, and the warnings come one after another as well. -/
theorem splitFrom_append (v : Vendor) (d : Delimiter) (a b : String)
    (statements : List Statement) (t : Session)
    (unaided : v = .generic ∨ v = .postgres ∨ v = .sqlserver ∨
      v = .mysql ∧ ¬ ['I', 'F'] <:+: upper a.toList)
    (oneLine : '\n' ∉ d.text.toList) (line : a.toList = [] ∨ EndsLine a.toList)
    (delivers : (Session.ofScript v.dialect d a).Delivers statements t)
    (level : t.context.parens = 0) :
    splitFrom v.dialect d (a ++ b) =
        shiftResult a.toList (fun later => statements ++ later.map (·.shift a.toList))
          (splitFrom v.dialect t.context.delimiter b) ∧
      (Session.ofScript v.dialect d (a ++ b)).remaining.1.warnings =
        t.warnings ++ (Session.ofScript v.dialect t.context.delimiter b).remaining.1.warnings.map
          (·.shift a.toList) := by
  have whole : Session.ofScript v.dialect d (a ++ b) =
      (Session.ofScript v.dialect d a).extend b.toList := by
    simp only [Session.ofScript, Session.extend, Cursor.start, Cursor.extend, String.toList_append]
  obtain ⟨ended, first⟩ := Session.remaining_extend b.toList delivers
    (Session.idle_ofScript v.dialect d a) (Session.detached_ofScript unaided oneLine line) rfl
  have place : t.cursor = .between a.toList [] := ended.cursor
  have dialect : t.dialect = v.dialect := ended.dialect
  have seam := Session.extend_eq_behind place line ended.closed level ended.own ended.exhausted b
  rw [dialect] at seam
  have rest := Session.remaining_behind t a.toList
    (s := Session.ofScript v.dialect t.context.delimiter b) rfl
  rw [seam, rest] at first
  constructor
  · rw [splitFrom, splitFrom, whole, first]
    cases (Session.ofScript v.dialect t.context.delimiter b).remaining.2 <;> rfl
  · rw [whole, first]
    rfl

/-- A directive in the first part, a block closed wrongly and a literal that is not closed in
the rest. The warning and the fault are told at the lines of the whole. -/
theorem splitFrom_append_directive :
    splitFrom .mysql .semicolon
        ("DELIMITER //\nSELECT 1 //\n" ++ "BEGIN SELECT 2; END CASE //\n'") =
          .error (.unterminated .stringLiteral 4) ∧
      (Session.ofScript .mysql .semicolon
        ("DELIMITER //\nSELECT 1 //\n" ++ "BEGIN SELECT 2; END CASE //\n'")).remaining.1.warnings =
          [⟨3, "CASE", "BEGIN"⟩] := by
  let s := Session.ofScript .mysql .semicolon "DELIMITER //\nSELECT 1 //\n"
  let t := s.next.1
  let u := t.next.1
  have found : s.next = (t, .ok (some ⟨2, 13, 21, "SELECT 1", .inline "//"⟩)) := by
    decide +kernel
  have ends : t.next = (u, .ok none) := by decide +kernel
  have delivers : s.Delivers [⟨2, 13, 21, "SELECT 1", .inline "//"⟩] u :=
    .statement found (Session.delimited_of_rest found (by decide +kernel)) (.done ends)
  obtain ⟨result, warnings⟩ := splitFrom_append .mysql .semicolon "DELIMITER //\nSELECT 1 //\n"
    "BEGIN SELECT 2; END CASE //\n'" [⟨2, 13, 21, "SELECT 1", .inline "//"⟩] u
    (Or.inr (Or.inr (Or.inr ⟨rfl, by decide +kernel⟩))) (by decide +kernel)
    (Or.inr ⟨"DELIMITER //\nSELECT 1 //".toList, by decide +kernel⟩) delivers (by decide +kernel)
  have rest : splitFrom Vendor.mysql.dialect u.context.delimiter "BEGIN SELECT 2; END CASE //\n'" =
      .error (.unterminated .stringLiteral 2) := by decide +kernel
  have warned : (Session.ofScript Vendor.mysql.dialect u.context.delimiter
      "BEGIN SELECT 2; END CASE //\n'").remaining.1.warnings = [⟨1, "CASE", "BEGIN"⟩] := by
    decide +kernel
  have quiet : u.warnings = [] := by decide +kernel
  rw [rest] at result
  rw [warned, quiet] at warnings
  refine ⟨result.trans ?_, warnings.trans ?_⟩
  · decide +kernel
  · decide +kernel

end SqlBoundary
