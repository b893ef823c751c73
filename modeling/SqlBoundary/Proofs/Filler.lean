import SqlBoundary.Proofs.Frame
import SqlBoundary.Proofs.Text

/-!
# What may stand between statements

Blanks, complete comments, occurrences of the active delimiter and lines with the dialect's
standalone terminator. Where one of these ends may depend on the text after it, and where it
begins on the text before it; both are part of the notion, and no reading function is.
-/

namespace SqlBoundary

open Text Lexeme

/-- Only blanks stand on the line before this place. -/
def FreshLine (before : List Char) : Prop :=
  ∀ c ∈ before.reverse.takeWhile (· != '\n'), isBlank c = true

/-- The line holds the delimiter's text in some ASCII case, and otherwise blanks. -/
structure FillsLine (d : Delimiter) (before text after : List Char) : Prop where
  fresh : FreshLine before
  oneLine : '\n' ∉ text
  ends : LineEnds after
  same : sameIgnoringCase (trimEnd text) d.text.toList = true

/-- The delimiter occurs between `before` and `after`, spelled as `text`. -/
inductive Occurs (d : Delimiter) (before : List Char) : List Char → List Char → Prop
  | inline {after : List Char} (kind : d.aloneOnLine = false) (nonempty : d.text.toList ≠ []) :
      Occurs d before d.text.toList after
  | alone {text after : List Char} (kind : d.aloneOnLine = true)
      (fills : FillsLine d before text after) : Occurs d before text after

/-- One piece of text between statements while the delimiter `d` is active. -/
inductive Filler (dialect : Dialect) (d : Delimiter) (before : List Char) :
    List Char → List Char → Prop
  | blank {c : Char} {after : List Char} (blank : isBlank c = true) :
      Filler dialect d before [c] after
  | lineComment {text after : List Char}
      (opens : ['-', '-'] <+: text ∨ dialect.hashComments = true ∧ ['#'] <+: text)
      (oneLine : '\n' ∉ text) (ends : LineEnds after) : Filler dialect d before text after
  | blockComment {body after : List Char} (first : ¬ ['*', '/'] <:+: body ++ ['*']) :
      Filler dialect d before (['/', '*'] ++ body ++ ['*', '/']) after
  | delimiter {text after : List Char} (occurs : Occurs d before text after) :
      Filler dialect d before text after
  | terminator {x : Delimiter} {text after : List Char}
      (standalone : dialect.standaloneTerminator = some x)
      (fills : FillsLine x before text after) : Filler dialect d before text after

/-- A concatenation of such pieces. -/
inductive Fillers (dialect : Dialect) (d : Delimiter) (before : List Char) :
    List Char → List Char → Prop
  | nil {after : List Char} : Fillers dialect d before [] after
  | snoc {gap piece after : List Char} (fillers : Fillers dialect d before gap (piece ++ after))
      (filler : Filler dialect d (before ++ gap) piece after) :
      Fillers dialect d before (gap ++ piece) after

theorem isPrefixOf_currentLine {pattern cs : List Char} (oneLine : '\n' ∉ pattern)
    (h : pattern <+: cs) : pattern <+: currentLine cs := by
  obtain ⟨rest, rfl⟩ := h
  exact ⟨currentLine rest, (currentLine_append_of_not_mem oneLine rest).symm⟩

theorem commentEnd?_eq_some {body : List Char} {n : Nat} (h : commentEnd? body = some n) :
    ∃ inner rest, body = inner ++ ['*', '/'] ++ rest ∧ n = inner.length + 2 ∧
      ¬ ['*', '/'] <:+: inner ++ ['*'] := by
  obtain ⟨k, found, rfl⟩ := Option.map_eq_some_iff.mp h
  obtain ⟨⟨rest, here⟩, short, first⟩ := position?_eq_some_iff.mp found
  have split : body = body.take k ++ ['*', '/'] ++ rest := by
    rw [List.append_assoc, here, List.take_append_drop]
  refine ⟨body.take k, rest, split, ?_, ?_⟩
  · rw [List.length_take, Nat.min_eq_left short]
  · rintro ⟨x, y, same⟩
    have early : x.length < k := by
      have lengths := congrArg List.length same
      simp only [List.length_append, List.length_cons, List.length_nil, List.length_take] at lengths
      omega
    refine first x.length early ⟨y ++ '/' :: rest, ?_⟩
    have whole : body = x ++ (['*', '/'] ++ (y ++ '/' :: rest)) := by
      rw [split]
      calc body.take k ++ ['*', '/'] ++ rest
          = (body.take k ++ ['*']) ++ '/' :: rest := by simp
        _ = x ++ ['*', '/'] ++ y ++ '/' :: rest := by rw [same]
        _ = x ++ (['*', '/'] ++ (y ++ '/' :: rest)) := by simp
    rw [whole, List.drop_left]

theorem comment?_filler {dialect : Dialect} {d : Delimiter} {before ahead : List Char} {n : Nat}
    (h : dialect.comment? ahead = some (.closed n)) :
    Filler dialect d before (ahead.take n) (ahead.drop n) := by
  rw [Dialect.comment?] at h
  split at h
  · next opens =>
    cases h
    rw [take_lineLength]
    refine .lineComment ?_ (lineFeed_not_mem_currentLine ahead) (lineEnds_drop_lineLength ahead)
    simp only [Bool.or_eq_true, Bool.and_eq_true, List.isPrefixOf_iff_prefix, beq_iff_eq] at opens
    rcases opens with dashes | ⟨hashes, head⟩
    · exact Or.inl (isPrefixOf_currentLine (by decide) dashes)
    · obtain ⟨rest, rfl⟩ := List.head?_eq_some_iff.mp head
      exact Or.inr ⟨hashes, isPrefixOf_currentLine (by decide) ⟨rest, rfl⟩⟩
  · split at h
    · next opens =>
      obtain ⟨body, rfl⟩ := List.isPrefixOf_iff_prefix.mp opens
      split at h
      · next m closed =>
        cases h
        obtain ⟨inner, rest, split, rfl, first⟩ := commentEnd?_eq_some closed
        have body_eq : body = inner ++ ['*', '/'] ++ rest := split
        subst body_eq
        have text : ['/', '*'] ++ (inner ++ ['*', '/'] ++ rest) =
            (['/', '*'] ++ inner ++ ['*', '/']) ++ rest := by simp
        have length : inner.length + 2 + 2 = (['/', '*'] ++ inner ++ ['*', '/']).length := by
          simp
        rw [text, length, List.take_left, List.drop_left]
        exact .blockComment first
      · cases h
    · cases h

theorem freshLine_of_content {before ahead : List Char}
    (h : (Cursor.between before ahead).content = false) : FreshLine before := by
  intro c hc
  simp only [Cursor.between, List.any_eq_false] at h
  simpa using h c hc

/-- A line that the cursor takes for the delimiter's holds the delimiter alone. -/
theorem fillsLine_of_atLineOf {x : Delimiter} {before ahead : List Char}
    (h : (Cursor.between before ahead).atLineOf x = true) :
    FillsLine x before (ahead.take (lineLength ahead)) (ahead.drop (lineLength ahead)) := by
  simp only [Cursor.atLineOf, Bool.and_eq_true, Bool.not_eq_true'] at h
  refine ⟨freshLine_of_content h.1, ?_, lineEnds_drop_lineLength ahead, ?_⟩
  · rw [take_lineLength]
    exact lineFeed_not_mem_currentLine ahead
  · rw [take_lineLength]
    exact h.2

namespace Session

variable {s : Session} {draft : Option Draft} {before : List Char}

theorem occurs_of_delimiterLength? {n : Nat} (place : s.cursor = .between before s.cursor.ahead)
    (h : s.delimiterLength? = some n) :
    Occurs s.context.delimiter before (s.cursor.ahead.take n) (s.cursor.ahead.drop n) := by
  obtain ⟨-, ⟨kind, line, rfl⟩ | ⟨-, starts, rfl⟩⟩ := delimiterLength?_eq_some h
  · rw [place] at line
    exact .alone kind (fillsLine_of_atLineOf line)
  · simp only [Delimiter.startsAt, Bool.and_eq_true, Bool.not_eq_true',
      List.isEmpty_eq_false_iff, List.isPrefixOf_iff_prefix] at starts
    obtain ⟨⟨kind, nonempty⟩, rest, split⟩ := starts
    rw [← split, List.take_left]
    exact .inline kind nonempty

theorem filler_of_gap {c : Char} {rest : List Char} {g : Gap} {n : Nat}
    (place : s.cursor = .between before s.cursor.ahead) (ahead : s.cursor.ahead = c :: rest)
    (found : s.gap? draft c = some g) (length : g.length? = some n) (d : Delimiter) :
    Filler s.dialect d before (s.cursor.ahead.take n) (s.cursor.ahead.drop n) := by
  cases g with
  | blank =>
    cases length
    rw [ahead]
    exact .blank (blank_of_gap? found)
  | delimiter => cases length
  | terminator m =>
    cases length
    obtain ⟨-, -, standing, rfl⟩ := terminator_of_gap? found
    cases standalone : s.dialect.standaloneTerminator with
    | none =>
      rw [atTerminator, standalone] at standing
      cases standing
    | some x =>
      rw [atTerminator, standalone, place] at standing
      exact .terminator standalone (fillsLine_of_atLineOf standing)
  | comment extent =>
    cases extent with
    | closed m =>
      cases length
      exact comment?_filler (comment_of_gap? found).2
    | unclosed => cases length

end Session

end SqlBoundary
