import Mathlib.Data.List.Basic
import SqlBoundary.Proofs.Segment

/-!
# Statements are parts of the script

In every dialect the statements are parts of the script, in order and apart from each other.
Where there are no directives, all text that belongs to none of them is made of fillers.
-/

namespace SqlBoundary

open Text

/-- The statement is a part of the script as its bytes tell: both ends are boundaries of
characters, the bytes between them are those of its text, and its line is that of its start. -/
structure Statement.PartOf (statement : Statement) (script : String) : Prop where
  nonempty : statement.start < statement.stop
  within : statement.stop ≤ script.utf8ByteSize
  startValid : String.Pos.Raw.IsValid script ⟨statement.start⟩
  stopValid : String.Pos.Raw.IsValid script ⟨statement.stop⟩
  bytes : script.toByteArray.extract statement.start statement.stop =
    statement.sql.toByteArray
  trimmed : Trimmed statement.sql.toList
  line : ∃ before after, script.toList = before ++ statement.sql.toList ++ after ∧
    byteSize before = statement.start ∧ statement.line = 1 + before.count '\n'

theorem Statement.Spans.partOf {statement : Statement} {before text after : List Char}
    {script : String} (spans : statement.Spans before text) (trimmed : Trimmed text)
    (split : script.toList = before ++ text ++ after) : statement.PartOf script := by
  have slice := Slice.of_append split
  have positive : 0 < byteSize text := by
    obtain ⟨c, rest, rfl, -⟩ := trimmed.first
    have := Char.utf8Size_pos c
    rw [byteSize_cons]
    omega
  rw [← spans.stop, ← spans.start] at slice
  refine ⟨?_, slice.within, slice.startValid, slice.stopValid, ?_, ?_, ?_⟩
  · rw [spans.start, spans.stop]
    omega
  · rw [spans.sql]
    exact slice.bytes
  · rw [spans.sql, String.toList_ofList]
    exact trimmed
  · refine ⟨before, after, ?_, spans.start.symm, ?_⟩
    · rw [spans.sql, String.toList_ofList, split]
    · rw [spans.line, Nat.add_comm]

namespace Session

variable {s t : Session} {p : List Char}

theorem later_start {statement later : Statement} {gap text blanks closing gap' text' : List Char}
    (segment : Segment s t p statement gap text blanks closing)
    (spans : later.Spans (p ++ gap ++ text ++ blanks ++ closing ++ gap') text') :
    statement.stop ≤ later.start := by
  rw [segment.spans.stop, spans.start]
  simp only [byteSize_append]
  omega

theorem spans_of_remaining {statements : List Statement} (idle : s.Idle p)
    (live : s.exhausted = false) (h : s.remaining.2 = .ok statements) :
    (∀ statement ∈ statements, ∃ gap text after, s.cursor.ahead = gap ++ text ++ after ∧
        statement.Spans (p ++ gap) text ∧ Trimmed text) ∧
      statements.Pairwise (fun a b => a.stop ≤ b.start) := by
  induction statements generalizing s p with
  | nil =>
    constructor
    · rintro statement ⟨⟩
    · exact List.Pairwise.nil
  | cons statement later ih =>
    rcases remaining_ok_cases live h with ⟨empty, -⟩ | ⟨t, x, rest, same, found, h⟩
    · cases empty
    · cases same
      obtain ⟨gap, text, blanks, closing, segment⟩ := segment_of_found idle found
      obtain ⟨parts, apart⟩ := ih segment.idle (by rw [segment.exhausted, live]) h
      constructor
      · intro y hy
        rcases List.mem_cons.mp hy with rfl | hy
        · refine ⟨gap, text, blanks ++ closing ++ t.cursor.ahead, ?_, segment.spans,
            segment.trimmed⟩
          rw [segment.split]
          simp only [List.append_assoc]
        · obtain ⟨gap', text', after, split, spans, trimmed⟩ := parts y hy
          refine ⟨gap ++ text ++ blanks ++ closing ++ gap', text', after, ?_, ?_, trimmed⟩
          · rw [segment.split, split]
            simp only [List.append_assoc]
          · simpa only [List.append_assoc] using spans
      · refine List.pairwise_cons.mpr ⟨?_, apart⟩
        intro y hy
        obtain ⟨gap', text', after, -, spans, -⟩ := parts y hy
        exact later_start segment spans

end Session

/-- Every statement is a part of the script, and each one ends before the next begins. -/
theorem statements_partOf (dialect : Dialect) (d : Delimiter) (script : String)
    (statements : List Statement) (h : splitFrom dialect d script = .ok statements) :
    (∀ statement ∈ statements, statement.PartOf script) ∧
      statements.Pairwise (fun a b => a.stop ≤ b.start) := by
  obtain ⟨parts, apart⟩ :=
    Session.spans_of_remaining (Session.idle_ofScript dialect d script) rfl h
  refine ⟨?_, apart⟩
  intro statement hs
  obtain ⟨gap, text, after, split, spans, trimmed⟩ := parts statement hs
  exact spans.partOf trimmed split

/-- A directive, a literal over two lines with a character of two bytes, and no delimiter at
the end of the script. -/
theorem statements_partOf_two :
    splitFrom .mysql .semicolon "DELIMITER //\nSELECT 'é\n;' //\n SELECT 2" =
        .ok [⟨2, 13, 26, "SELECT 'é\n;'", .inline "//"⟩, ⟨4, 31, 39, "SELECT 2", .inline "//"⟩] ∧
      (∀ statement ∈ [⟨2, 13, 26, "SELECT 'é\n;'", .inline "//"⟩,
          ⟨4, 31, 39, "SELECT 2", .inline "//"⟩], Statement.PartOf statement
        "DELIMITER //\nSELECT 'é\n;' //\n SELECT 2") ∧
      [(⟨2, 13, 26, "SELECT 'é\n;'", .inline "//"⟩ : Statement),
        ⟨4, 31, 39, "SELECT 2", .inline "//"⟩].Pairwise (fun a b => a.stop ≤ b.start) :=
  ⟨by decide +kernel, statements_partOf .mysql .semicolon _ _ (by decide +kernel)⟩

/-- The text ahead of the place after `before` is used up by the statements, with nothing but
fillers before, between and after them, and blanks and a delimiter at the end of each. -/
inductive Covers (dialect : Dialect) (d : Delimiter) :
    List Char → List Char → List Statement → Prop
  | nothing {before gap : List Char} (fillers : Fillers dialect d before gap []) :
      Covers dialect d before gap []
  | statement {before gap text blanks closing after : List Char} {statement : Statement}
      {later : List Statement}
      (fillers : Fillers dialect d before gap (text ++ blanks ++ closing ++ after))
      (spans : statement.Spans (before ++ gap) text)
      (blank : ∀ c ∈ blanks, isBlank c = true)
      (closes : Occurs statement.delimiter (before ++ gap ++ text ++ blanks) closing after ∨
        closing = [] ∧ after = [])
      (active : statement.delimiter = d ∨ dialect.blocks = .oracle ∧ statement.delimiter = .slash)
      (rest : Covers dialect d (before ++ gap ++ text ++ blanks ++ closing) after later) :
      Covers dialect d before (gap ++ text ++ blanks ++ closing ++ after) (statement :: later)

theorem Session.covers_of_remaining {s : Session} {p : List Char} {statements : List Statement}
    (idle : s.Idle p) (live : s.exhausted = false)
    (plain : s.dialect.delimiterDirective = false) (h : s.remaining.2 = .ok statements) :
    Covers s.dialect s.scriptDelimiter p s.cursor.ahead statements := by
  induction statements generalizing s p with
  | nil =>
    rcases remaining_ok_cases live h with ⟨-, t, finished⟩ | ⟨t, x, rest, same, -⟩
    · exact .nothing (fillers_of_finished idle finished plain)
    · cases same
  | cons statement later ih =>
    rcases remaining_ok_cases live h with ⟨empty, -⟩ | ⟨t, x, rest, same, found, h⟩
    · cases empty
    · cases same
      obtain ⟨gap, text, blanks, closing, segment⟩ := segment_of_found idle found
      have rest := ih segment.idle (by rw [segment.exhausted, live])
        (by rw [segment.dialect, plain]) h
      rw [segment.dialect, segment.script plain] at rest
      rw [segment.split]
      exact .statement (segment.fillers plain) segment.spans segment.blank segment.closes
        (segment.script plain ▸ segment.active) rest

/-- Without directives no text of the script is lost. -/
theorem statements_cover (dialect : Dialect) (plain : dialect.delimiterDirective = false)
    (d : Delimiter) (script : String) (statements : List Statement)
    (h : splitFrom dialect d script = .ok statements) :
    Covers dialect d [] script.toList statements :=
  Session.covers_of_remaining (Session.idle_ofScript dialect d script) rfl plain h

/-- Empty statements, a stored unit that takes a delimiter of its own, a stray terminator and
comments on both sides of a statement's first token. -/
theorem statements_cover_two :
    splitFrom .oracle .semicolon ";BEGIN x; END;\n/ \n-- c\nSELECT 1 /* ; */ ;\n/\n;" =
        .ok [⟨1, 1, 14, "BEGIN x; END;", .slash⟩, ⟨4, 23, 39, "SELECT 1 /* ; */", .semicolon⟩] ∧
      Covers .oracle .semicolon []
        ";BEGIN x; END;\n/ \n-- c\nSELECT 1 /* ; */ ;\n/\n;".toList
        [⟨1, 1, 14, "BEGIN x; END;", .slash⟩, ⟨4, 23, 39, "SELECT 1 /* ; */", .semicolon⟩] :=
  ⟨by decide +kernel, statements_cover .oracle rfl .semicolon _ _ (by decide +kernel)⟩

end SqlBoundary
