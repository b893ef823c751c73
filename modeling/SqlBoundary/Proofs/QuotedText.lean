import SqlBoundary.Proofs.Constructs
import SqlBoundary.Proofs.Sealed

/-!
# Where a quoted text ends

The text after an opening quote is read to its end where a text of the grammar `Inner` and a
single closing quote stand, and nowhere else. There is one such place at most. Where there is
none, the fault has the line of the opening quote.

The grammar is told on whole texts, the reading goes by one character and the one after it:
both directions are by induction, one over the reading and one over the text.
-/

namespace SqlBoundary

open Text Lexeme

/-- The first `n` bytes of what stands behind an opening quote are quoted text and the closing
quote, which what comes after does not double. -/
def ClosedAfter (closes : Char) (escapes : Bool) (behind : List Char) (n : Nat) : Prop :=
  ∃ inner after, behind = inner ++ closes :: after ∧ Inner closes escapes inner ∧
    after.head? ≠ some closes ∧ n = byteSize (inner ++ [closes])

/-- The pass takes `n` bytes of what stands behind, and changes nothing else. -/
def Session.GoesPast (s : Session) (draft : Option Draft) (passed behind : List Char) (n : Nat)
    (result : Pass) : Prop :=
  ∃ text after, behind = text ++ after ∧ byteSize text = n ∧
    result = .more { s with cursor := .between (passed ++ text) after } draft

section grammar

variable {closes : Char} {escapes : Bool} {behind inner after : List Char} {n m : Nat}

theorem inner_doubled (closes : Char) (value : List Char) :
    Inner closes false (doubled closes value) := by
  induction value with
  | nil => exact .nil
  | cons c value ih =>
    by_cases mark : c = closes
    · subst mark
      simpa [doubled] using Inner.doubled ih
    · simpa [doubled, mark] using Inner.plain mark (fun on => by cases on) ih

/-- Of two texts of the grammar before a single closing quote, in one text, neither is longer. -/
theorem Inner.unique (bare : escapes = true → closes ≠ '\\') {inner' after' : List Char}
    (holds : Inner closes escapes inner) (single : after.head? ≠ some closes)
    (holds' : Inner closes escapes inner') (single' : after'.head? ≠ some closes)
    (same : inner ++ closes :: after = inner' ++ closes :: after') : inner = inner' := by
  have ends := quotedEnd?_of_inner (n := 0) bare holds single
  have ends' := quotedEnd?_of_inner (n := 0) bare holds' single'
  rw [same, ends'] at ends
  have length : inner'.length = inner.length := by
    have counts := Option.some.inj ends
    omega
  exact (List.append_inj same length.symm).1

theorem ClosedAfter.unique (bare : escapes = true → closes ≠ '\\')
    (h : ClosedAfter closes escapes behind n) (h' : ClosedAfter closes escapes behind m) :
    n = m := by
  obtain ⟨inner, after, rfl, holds, single, rfl⟩ := h
  obtain ⟨inner', after', same, holds', single', rfl⟩ := h'
  rw [Inner.unique bare holds single holds' single' same]

theorem closedAfter_iff_quotedEnd? (bare : escapes = true → closes ≠ '\\') (k : Nat) :
    ClosedAfter closes escapes behind n ↔
      ∃ text after, behind = text ++ after ∧ byteSize text = n ∧
        quotedEnd? closes escapes k behind = some (k + text.length) := by
  constructor
  · rintro ⟨inner, after, rfl, holds, single, rfl⟩
    refine ⟨inner ++ [closes], after, by simp, rfl, ?_⟩
    rw [quotedEnd?_of_inner bare holds single, List.length_append]
    rfl
  · rintro ⟨text, after, rfl, rfl, ends⟩
    obtain ⟨inner, after', split, holds, single, length⟩ := inner_of_quotedEnd? ends
    have whole : text ++ after = (inner ++ [closes]) ++ after' := by simpa using split
    have equal : text = inner ++ [closes] :=
      (List.append_inj whole (by rw [List.length_append, List.length_singleton]; omega)).1
    exact ⟨inner, after', split, holds, single, by rw [equal]⟩

theorem quotedEnd?_of_not_closedAfter {k : Nat}
    (never : ∀ n, ¬ ClosedAfter closes escapes behind n) :
    quotedEnd? closes escapes k behind = none := by
  cases ends : quotedEnd? closes escapes k behind with
  | none => rfl
  | some m =>
    obtain ⟨inner, after, split, holds, single, -⟩ := inner_of_quotedEnd? ends
    exact absurd ⟨inner, after, split, holds, single, rfl⟩ (never _)

end grammar

/-- A construct begins on the line of its opening mark. -/
theorem Starts.level {dialect : Dialect} {lead ahead : List Char} {construct : Construct}
    {marks : Marks} (h : Starts dialect lead ahead construct marks) : '\n' ∉ lead := by
  cases h with
  | extended _ letter => rcases letter with rfl | rfl <;> decide
  | _ => exact List.not_mem_nil

namespace Session

section

variable {s : Session} {draft : Option Draft} {passed mark behind : List Char} {n : Nat}
variable {closes : Char} {escapes : Bool} {construct : Construct}

theorem passText_of_quotedEnd? (here : s.cursor = .between passed (mark ++ behind))
    {text after : List Char} (split : behind = text ++ after)
    (ends : quotedEnd? closes escapes mark.length behind = some (mark.length + text.length)) :
    s.passText (Quote.extent ⟨mark.length, closes, escapes, construct⟩ s.cursor.ahead) draft =
      .more { s with cursor := .between (passed ++ mark ++ text) after } draft := by
  have ahead : s.cursor.ahead = mark ++ behind := by rw [here]; rfl
  have extent : Quote.extent ⟨mark.length, closes, escapes, construct⟩ s.cursor.ahead =
      .closed (mark.length + text.length) := by
    rw [Quote.extent, ahead, List.drop_left, ends]
  have place : s.cursor.skip (mark.length + text.length) =
      .between (passed ++ mark ++ text) after := by
    rw [here, ← Cursor.skip_skip, Cursor.skip_text, split, Cursor.skip_text]
  rw [extent, passText, skip, place]

theorem passText_of_unclosed (here : s.cursor = .between passed (mark ++ behind))
    (never : ∀ n, ¬ ClosedAfter closes escapes behind n) :
    s.passText (Quote.extent ⟨mark.length, closes, escapes, construct⟩ s.cursor.ahead) draft =
      .failed { s with cursor := .between (passed ++ mark ++ behind) [] }
        (.unterminated construct (passed.count '\n' + 1)) := by
  have ahead : s.cursor.ahead = mark ++ behind := by rw [here]; rfl
  have extent : Quote.extent ⟨mark.length, closes, escapes, construct⟩ s.cursor.ahead =
      .unclosed construct (mark ++ behind).length := by
    rw [Quote.extent, ahead, List.drop_left, quotedEnd?_of_not_closedAfter never]
  have place : s.cursor.skip (mark ++ behind).length =
      .between (passed ++ mark ++ behind) [] := by
    rw [here, Cursor.skip_between, List.take_length, List.drop_length, List.append_assoc]
  have line : s.line = passed.count '\n' + 1 := by rw [Session.line, here]; rfl
  rw [extent, passText, skip, place, line]

/-- A pass goes on behind the text where the grammar says so. -/
theorem goesPast_iff (bare : escapes = true → closes ≠ '\\')
    (here : s.cursor = .between passed (mark ++ behind)) :
    s.GoesPast draft (passed ++ mark) behind n
        (s.passText (Quote.extent ⟨mark.length, closes, escapes, construct⟩ s.cursor.ahead) draft) ↔
      ClosedAfter closes escapes behind n := by
  constructor
  · rintro ⟨text, after, split, size, result⟩
    by_cases closed : ∃ m, ClosedAfter closes escapes behind m
    · obtain ⟨m, closed⟩ := closed
      obtain ⟨text', after', split', size', ends⟩ :=
        (closedAfter_iff_quotedEnd? bare mark.length).mp closed
      rw [passText_of_quotedEnd? here split' ends] at result
      have same : after' = after := congrArg (·.cursor.ahead) (Pass.more.inj result).1
      subst same
      have equal : text' = text := List.append_cancel_right (split'.symm.trans split)
      rwa [← size, ← equal, size']
    · rw [passText_of_unclosed here (not_exists.mp closed)] at result
      cases result
  · intro closed
    obtain ⟨text, after, split, size, ends⟩ :=
      (closedAfter_iff_quotedEnd? bare mark.length).mp closed
    exact ⟨text, after, split, size, passText_of_quotedEnd? here split ends⟩

end

/-- Wherever one of these dialects reads a quoted text, the opening quote is on the line where
the token begins, and no backslash closes a text in which it escapes. -/
theorem readToken_of_quote? {v : Vendor} {s : Session} {c : Char} {rest : List Char} {q : Quote}
    (dialect : s.dialect = v.dialect) (found : v.dialect.quote? c rest = some q) (draft : Draft) :
    s.readToken draft c rest = s.passText (q.extent (c :: rest)) (some draft.afterText) ∧
      (q.escapes = true → q.close ≠ '\\') ∧
      ∃ lead opens behind, c :: rest = lead ++ opens :: behind ∧ '\n' ∉ lead ∧
        q.opening = lead.length + 1 := by
  obtain ⟨lead, opens, opening, whole, starts⟩ := Dialect.starts_of_quote found
  have undollared : v.dialect.dollarQuote? c rest = none := by
    have other : c ≠ '$' := by
      rintro rfl
      cases v <;> cases found
    simp [Dialect.dollarQuote?, other]
  refine ⟨?_, Dialect.bare_of_starts v.bare starts, lead, opens, _, whole, starts.level, opening⟩
  rw [readToken, Dialect.token, dialect, undollared, found]

/-- What stands behind an opening quote is passed for `n` bytes just if the grammar tells so
many of it to be quoted text and closing quote. This is so for one `n` at most, and if for none,
the text is unterminated from the line of the quote on. A value with its closing quotes doubled
is passed as a whole. -/
theorem passText_quote {closes : Char} {escapes : Bool} (bare : escapes = true → closes ≠ '\\')
    {s : Session} {passed lead behind : List Char} {opens : Char} (level : '\n' ∉ lead)
    (here : s.cursor = .between passed (lead ++ opens :: behind)) (construct : Construct)
    (draft : Option Draft) :
    let quote : Quote := ⟨lead.length + 1, closes, escapes, construct⟩
    let result := s.passText (quote.extent s.cursor.ahead) draft
    let past := fun n => s.GoesPast draft (passed ++ lead ++ [opens]) behind n result
    (∀ n, past n ↔ ClosedAfter closes escapes behind n) ∧
      (∀ n m, ClosedAfter closes escapes behind n → ClosedAfter closes escapes behind m → n = m) ∧
      ((∀ n, ¬ ClosedAfter closes escapes behind n) → result =
        .failed { s with cursor := .between (passed ++ lead ++ opens :: behind) [] }
          (.unterminated construct ((passed ++ lead).count '\n' + 1))) ∧
      (escapes = false → ∀ value after, behind = doubled closes value ++ closes :: after →
        after.head? ≠ some closes → past (byteSize (doubled closes value ++ [closes]))) := by
  have here' : s.cursor = .between passed ((lead ++ [opens]) ++ behind) := by simpa using here
  have length : lead.length + 1 = (lead ++ [opens]).length := by simp
  have lines : (passed ++ lead).count '\n' = passed.count '\n' := by
    rw [List.count_append, List.count_eq_zero_of_not_mem level, Nat.add_zero]
  intro quote result past
  have iff : ∀ n, past n ↔ ClosedAfter closes escapes behind n := by
    intro n
    have go : s.GoesPast draft (passed ++ (lead ++ [opens])) behind n
        (s.passText (Quote.extent ⟨(lead ++ [opens]).length, closes, escapes, construct⟩
          s.cursor.ahead) draft) ↔ ClosedAfter closes escapes behind n := goesPast_iff bare here'
    rwa [← length, ← List.append_assoc] at go
  refine ⟨iff, fun n m => ClosedAfter.unique bare, ?_, ?_⟩
  · intro never
    have fails : s.passText (Quote.extent ⟨(lead ++ [opens]).length, closes, escapes, construct⟩
        s.cursor.ahead) draft = _ := passText_of_unclosed here' never
    simpa [← length, lines] using fails
  · rintro rfl value after rfl single
    exact (iff _).mpr ⟨doubled closes value, after, rfl, inner_doubled closes value, single, rfl⟩

theorem passText_quote_escapes :
    let s := (Session.ofScript .postgres .semicolon "SELECT\nE'a''b\\'' FROM t").skip 7
    s.GoesPast none "SELECT\nE'".toList "a''b\\'' FROM t".toList 7
      (s.passText (Quote.extent ⟨2, '\'', true, .stringLiteral⟩ s.cursor.ahead) none) := by
  have inner : Inner '\'' true "a''b\\'".toList :=
    .plain (by decide) (fun _ => by decide) <| .doubled <|
      .plain (by decide) (fun _ => by decide) <| .escaped rfl .nil
  have here : ((Session.ofScript .postgres .semicolon "SELECT\nE'a''b\\'' FROM t").skip 7).cursor =
      .between "SELECT\n".toList ("E".toList ++ '\'' :: "a''b\\'' FROM t".toList) := by
    decide +kernel
  exact ((passText_quote (fun _ => by decide) (by decide) here .stringLiteral none).1 7).mpr
    ⟨"a''b\\'".toList, " FROM t".toList, by decide +kernel, inner, by decide +kernel,
      by decide +kernel⟩

end Session

end SqlBoundary
