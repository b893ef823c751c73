import SqlBoundary.Proofs.Append
import SqlBoundary.Proofs.Segment

/-!
# Directive lines

A directive begins with its keyword, in any ASCII case, and ends with its line. What it sets is
what stands between, blanks at both ends apart; a keyword with nothing but blanks after it is a
fault.
-/

namespace SqlBoundary

open Text

variable {line keyword : List Char} {d : Delimiter} {fault : Fault}

/-- Behind its keyword the line holds the text of the delimiter, set apart by blanks. -/
structure SetBy (d : Delimiter) (line keyword : List Char) : Prop where
  split : ∃ gap blanks, line = keyword ++ gap ++ d.text.toList ++ blanks ∧
    gap ≠ [] ∧ (∀ c ∈ gap, isBlank c = true) ∧ ∀ c ∈ blanks, isBlank c = true
  trimmed : Trimmed d.text.toList
  inline : d.aloneOnLine = false

/-- The line is a directive that sets this delimiter. -/
structure IsDirective (d : Delimiter) (line : List Char) : Prop where
  sets : ∃ keyword, upper keyword = "DELIMITER".toList ∧ SetBy d line keyword
  oneLine : '\n' ∉ line

theorem ofDirective?_error (solid : ∀ c ∈ line.head?, isBlank c = false)
    (h : Delimiter.ofDirective? line = .error fault) :
    ∃ keyword blanks, line = keyword ++ blanks ∧ (∀ c ∈ blanks, isBlank c = true) ∧
      sameIgnoringCase keyword "DELIMITER".toList = true ∧
      fault = .emptyDirective (String.ofList keyword) := by
  simp only [Delimiter.ofDirective?, trim_of_solid solid] at h
  obtain ⟨blanks, whole, blank⟩ := trimEnd_append_blanks line
  obtain ⟨rest, split, drop, stops⟩ := keyword_split (trimEnd line)
  rw [drop] at h
  split at h
  · next same =>
    split at h
    · next empty =>
      cases h
      obtain ⟨gap, parts, gapBlank, first⟩ := trimStart_split rest
      obtain ⟨more, trim', moreBlank⟩ := trimEnd_append_blanks (trimStart rest)
      rw [trim, List.isEmpty_iff] at empty
      rw [empty, List.nil_append] at trim'
      have none : rest = [] := by
        rcases List.eq_nil_or_concat rest with none | ⟨begin, c, last⟩
        · exact none
        · have mem : c ∈ rest := by rw [last]; simp
          have blankC : isBlank c = true := by
            rw [parts] at mem
            rcases List.mem_append.mp mem with inGap | inMore
            · exact gapBlank c inGap
            · exact moreBlank c (trim' ▸ inMore)
          have ends : (trimEnd line).getLast? = some c := by
            rw [split, last]
            simp
          rw [trimEnd_getLast? ends] at blankC
          cases blankC
      rw [none, List.append_nil] at split
      refine ⟨trimEnd line, blanks, whole, blank, ?_, rfl⟩
      rw [split]
      exact same
    · cases h
  · cases h

theorem ofDirective?_some (solid : ∀ c ∈ line.head?, isBlank c = false)
    (h : Delimiter.ofDirective? line = .ok (some d)) :
    ∃ keyword, sameIgnoringCase keyword "DELIMITER".toList = true ∧ SetBy d line keyword := by
  simp only [Delimiter.ofDirective?, trim_of_solid solid] at h
  obtain ⟨blanks, whole, blank⟩ := trimEnd_append_blanks line
  obtain ⟨rest, split, drop, stops⟩ := keyword_split (trimEnd line)
  rw [drop] at h
  split at h
  · next same =>
    split at h
    · cases h
    · next some_ =>
      cases h
      obtain ⟨gap, parts, gapBlank, first⟩ := trimStart_split rest
      obtain ⟨more, trim', moreBlank⟩ := trimEnd_append_blanks (trimStart rest)
      have text : (Delimiter.inline (String.ofList (trim rest))).text.toList =
          trimEnd (trimStart rest) := String.toList_ofList
      cases inner : trimStart rest with
      | nil =>
        rw [trim, inner] at some_
        exact absurd rfl some_
      | cons c tail =>
        rw [inner] at parts trim' first
        have solidC : isBlank c = false := first c rfl
        refine ⟨_, same, ⟨⟨gap, more ++ blanks, ?_, ?_, gapBlank, ?_⟩, ?_, rfl⟩⟩
        · rw [text, inner]
          conv => lhs; rw [whole, split, parts, trim']
          simp only [List.append_assoc]
        · rintro rfl
          have blankC := stops c (by rw [parts]; rfl)
          rw [solidC] at blankC
          cases blankC
        · intro x mem
          rcases List.mem_append.mp mem with mem | mem
          · exact moreBlank x mem
          · exact blank x mem
        · rw [text, inner]
          exact trimmed_trimEnd solidC tail
  · cases h

namespace Session

variable {s u : Session} {x : Draft} {c : Char} {rest : List Char}

/-- The keyword of the line is the word that has been read. -/
theorem keyword_eq_word {keyword more : List Char} (may : s.mayDirect x = true)
    (split : currentLine s.cursor.ahead = keyword ++ more)
    (same : sameIgnoringCase keyword "DELIMITER".toList = true) : keyword = s.word := by
  have line : s.cursor.ahead = currentLine s.cursor.ahead ++
      s.cursor.ahead.drop (lineLength s.cursor.ahead) := by
    rw [← take_lineLength, List.take_append_drop]
  have text : upper s.word = "DELIMITER".toList := by
    rw [← (mayDirect_iff.mp may).2.1, wordText, String.toList_ofList]
  have length : keyword.length = s.word.length := by
    have first := congrArg List.length (beq_iff_eq.mp same)
    have second := congrArg List.length text
    simp only [lower, upper, List.length_map] at first second
    rw [first, second]
  have begins : keyword <+: s.cursor.ahead := by
    rw [line, split, List.append_assoc]
    exact List.prefix_append _ _
  exact (List.prefix_of_prefix_length_le begins (s.context.wordAhead_prefix s.cursor.ahead)
    (Nat.le_of_eq length)).eq_of_length length

theorem solid_line (ahead : s.cursor.ahead = c :: rest) (solid : isBlank c = false) :
    ∀ x ∈ (currentLine s.cursor.ahead).head?, isBlank x = false := by
  intro x head
  rw [ahead, currentLine, List.takeWhile_cons_of_pos (by simp [ne_lineFeed_of_solid solid])] at head
  cases head
  exact solid

/-- A directive without a delimiter is a line with the keyword alone. -/
theorem directive_error (ahead : s.cursor.ahead = c :: rest) (solid : isBlank c = false)
    (may : s.mayDirect x = true) (h : s.directive? = .error fault) :
    fault = .emptyDirective (String.ofList s.word) ∧ ∃ blanks after,
      s.cursor.ahead = s.word ++ blanks ++ after ∧ (∀ c ∈ blanks, isBlank c = true) ∧
        '\n' ∉ blanks ∧ LineEnds after := by
  obtain ⟨keyword, blanks, split, blank, same, rfl⟩ :=
    ofDirective?_error (solid_line ahead solid) h
  have word := keyword_eq_word may split same
  subst word
  refine ⟨rfl, blanks, s.cursor.ahead.drop (lineLength s.cursor.ahead), ?_, blank, ?_,
    lineEnds_drop_lineLength _⟩
  · rw [← split, ← take_lineLength, List.take_append_drop]
  · intro mem
    have oneLine := lineFeed_not_mem_currentLine s.cursor.ahead
    rw [split] at oneLine
    exact oneLine (List.mem_append_right _ mem)

/-- A directive that is applied sets the delimiter that its line holds. -/
theorem directive_some (ahead : s.cursor.ahead = c :: rest) (solid : isBlank c = false)
    (may : s.mayDirect x = true) (h : s.directive? = .ok (some d)) :
    SetBy d (currentLine s.cursor.ahead) s.word := by
  obtain ⟨keyword, same, sets⟩ := ofDirective?_some (solid_line ahead solid) h
  obtain ⟨gap, blanks, split, -⟩ := sets.split
  have whole : currentLine s.cursor.ahead = keyword ++ (gap ++ d.text.toList ++ blanks) := by
    rw [split]
    simp only [List.append_assoc]
  rw [← keyword_eq_word may whole same]
  exact sets

/-- A directive reaches to the end of its line. -/
theorem direct_cursor (s : Session) (x : Delimiter) :
    (s.direct x).cursor = s.cursor.skip (lineLength s.cursor.ahead) := by
  obtain ⟨more, split⟩ := s.context.wordAhead_prefix s.cursor.ahead
  have oneLine : '\n' ∉ s.word := s.context.lineFeed_not_mem_wordAhead s.cursor.ahead
  have split : s.cursor.ahead = s.word ++ more := split.symm
  have passed : s.afterWord.cursor.ahead = more := by
    rw [afterWord, skip_cursor, Cursor.skip_ahead, split]
    exact List.drop_left' rfl
  have line : currentLine (s.word ++ more) = s.word ++ currentLine more :=
    currentLine_append_of_not_mem oneLine more
  have long : lineLength s.cursor.ahead = s.word.length + lineLength more := by
    rw [split, lineLength, line, List.length_append, lineLength]
  have moved : (s.direct x).cursor = s.afterWord.cursor.skip (lineLength more) := by
    rw [← passed]
    rfl
  rw [moved, long, afterWord, skip_cursor, Cursor.skip_skip]

theorem direct_ahead (s : Session) (x : Delimiter) :
    (s.direct x).cursor.ahead = s.cursor.ahead.drop (lineLength s.cursor.ahead) := by
  rw [direct_cursor, Cursor.skip_ahead]

variable {t : Session} {draft : Option Draft}

theorem fresh_of_begin (begun : s.begin draft = .ok (u, x)) (fresh : x.leading = []) :
    ∀ y ∈ draft, y.leading = [] := by
  intro y mem
  rcases begin_eq_ok_iff.mp begun with ⟨held, -⟩ | ⟨none, -⟩
  · obtain rfl := Option.some.inj (held.symm.trans mem)
    exact fresh
  · rw [none] at mem
    cases mem

/-- A directive is read only where the statement has no words yet. -/
theorem Directs.fresh (h : Directs s draft d t) : ∀ y ∈ draft, y.leading = [] := by
  obtain ⟨-, -, begun, -, may, -⟩ := h
  exact fresh_of_begin begun (mayDirect_iff.mp may).1

theorem Directs.sets (h : Directs s draft d t) : t.scriptDelimiter = d := by
  obtain ⟨-, -, -, -, -, -⟩ := h
  rfl

/-- The line is passed up to its end. -/
theorem Directs.split (h : Directs s draft d t) : ∃ line, s.cursor.ahead = line ++ t.cursor.ahead ∧
    t.cursor = s.cursor.skip line.length ∧ IsDirective d line ∧ LineEnds t.cursor.ahead := by
  cases h with
  | @intro c rest u y ahead solid begun token may directive =>
    have nonblank := (gap?_eq_none_iff.mp solid).1
    have moved := begin_cursor begun
    have sets := directive_some (by rw [moved]; exact ahead) nonblank may directive
    have spelled : upper u.word = "DELIMITER".toList := by
      rw [← (mayDirect_iff.mp may).2.1, wordText, String.toList_ofList]
    rw [moved] at sets
    refine ⟨currentLine s.cursor.ahead, ?_, ?_, ⟨⟨u.word, spelled, sets⟩,
      lineFeed_not_mem_currentLine _⟩, ?_⟩
    · rw [direct_ahead, moved, ← take_lineLength, List.take_append_drop]
    · rw [direct_cursor, moved, lineLength]
    · rw [direct_ahead]
      exact lineEnds_drop_lineLength _

end Session

end SqlBoundary
