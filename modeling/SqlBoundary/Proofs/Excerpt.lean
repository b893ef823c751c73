import Mathlib.Data.List.DropRight
import SqlBoundary.Proofs.CutWords
import SqlBoundary.Proofs.Phrases

/-!
# A statement on its own

The text of a statement, split alone, is that one statement again. The second reading is in step
with the first, but sees the end of the script where the first saw blanks and a delimiter. No
text, comment or block is left open there: a token ends within the text, and only a comment that
ends with its line may go on over the blanks after it.
-/

namespace SqlBoundary

open Text

namespace Session

variable {s t u s' : Session} {draft draft' e f : Option Draft} {after : List Char}

theorem mem_upper_append {piece more : List Char} (letters : 'N' ∈ upper more ∧ 'D' ∈ upper more) :
    'N' ∈ upper (piece ++ more) ∧ 'D' ∈ upper (piece ++ more) := by
  rw [upper, List.map_append]
  exact ⟨List.mem_append_right _ letters.1, List.mem_append_right _ letters.2⟩

/-- A word other than `END` closes no block. -/
theorem takeWord_keeps {d : Draft} {text : String} (h : s.takeWord d text = .more t e)
    (opened : s.context.blocks ≠ []) (other : text ≠ "END") : t.context.blocks ≠ [] := by
  simp only [takeWord, beq_iff_eq, other, if_false] at h
  cases h
  rw [classify_eq, openBlock_eq]
  dsimp only [Context.setDelimiter]
  split
  · exact List.cons_ne_nil _ _
  · exact opened

theorem takeWord_cursor {d : Draft} {text : String} (h : s.takeWord d text = .more t e) :
    t.cursor = s.cursor := by
  obtain ⟨-, blocks, lastClosed, warnings, rfl⟩ := takeWord_more h
  rw [classify_eq]

/-- Only an `END` closes the last block. -/
theorem step_closes (h : Step s draft t e) (opened : s.context.blocks ≠ [])
    (closed : t.context.blocks = []) :
    ∃ piece, s.cursor.ahead = piece ++ t.cursor.ahead ∧ upper piece = "END".toList := by
  cases h with
  | gap => exact absurd closed opened
  | delimiter => exact absurd closed opened
  | text _ _ begun =>
    obtain ⟨kind, rfl⟩ := begin_ok begun
    exact absurd closed opened
  | symbol _ _ begun =>
    obtain ⟨kind, rfl⟩ := begin_ok begun
    rw [countParen_eq] at closed
    exact absurd closed opened
  | directive _ _ begun =>
    obtain ⟨kind, rfl⟩ := begin_ok begun
    exact absurd closed opened
  | @word _ _ c rest u _ d _ _ begun _ _ taken =>
    obtain ⟨kind, same⟩ := begin_ok begun
    have cursor : u.cursor = s.cursor := by rw [same]
    have opened' : u.afterWord.context.blocks ≠ [] := by rw [same]; exact opened
    by_cases text : u.wordText = "END"
    · refine ⟨u.word, ?_, ?_⟩
      · rw [takeWord_cursor taken, ← cursor]
        exact u.ahead_eq_word_append
      · rw [← text, wordText, String.toList_ofList]
    · exact absurd closed (takeWord_keeps taken opened' text)

/-- Where blocks that were open are closed, an `END` has been read. -/
theorem mended_close (h : Mended after s draft u f) (opened : s.context.blocks ≠ [])
    (closed : u.context.blocks = []) :
    ∃ piece, s.cursor.ahead = piece ++ u.cursor.ahead ∧ 'N' ∈ upper piece ∧ 'D' ∈ upper piece := by
  induction h with
  | refl => exact absurd closed opened
  | @step s t u draft e f first shorter whole later ih =>
    obtain ⟨piece, split, -⟩ := step_cut first
    by_cases done : t.context.blocks = []
    · obtain ⟨word, split, text⟩ := step_closes first opened done
      obtain ⟨more, rests⟩ := mended_cut later
      refine ⟨word ++ more, by rw [split, rests, List.append_assoc], ?_, ?_⟩
      · rw [upper, List.map_append, ← upper, text]
        simp
      · rw [upper, List.map_append, ← upper, text]
        simp
    · obtain ⟨more, rests, letters⟩ := ih done closed
      exact ⟨piece ++ more, by rw [split, rests, List.append_assoc], mem_upper_append letters⟩
  | @word s u draft f p word ahead cut later ih =>
    have opened' : (s.pastWord draft word).context.blocks ≠ [] := by
      rw [pastWord_blocks]
      exact opened
    obtain ⟨more, rests, letters⟩ := ih opened' closed
    refine ⟨s.cursor.ahead.take word.length ++ more, ?_, mem_upper_append letters⟩
    rw [List.append_assoc, ← rests, pastWord_ahead, List.take_append_drop]
  | alike alike place later ih =>
    rw [← place]
    exact ih (alike.blocks ▸ opened) closed

/-- A `BEGIN` that starts no transaction opens a block. -/
theorem opened_of_begin (std : s.dialect.Standard) {spelled : List Char}
    (seen : s.sight draft = .word spelled false) (text : String.ofList (upper spelled) = "BEGIN")
    (h : s.pass draft = .more t e) : t.context.blocks ≠ [] := by
  have grammar : (s.pastWord draft spelled).dialect.blocks = .common := std.blocks
  have word := seesWord_of_sight seen
  simp only [Context.seesWord, Sight.word.injEq] at word
  obtain ⟨same, next⟩ := word
  rw [same, text, beq_self_eq_true, Bool.true_and, ← pastWord_ahead] at next
  have opens : (s.pastWord draft spelled).dialect.blocks.opens
      ((s.pastWord draft spelled).asWord (draft.getD (.begin s.cursor)) "BEGIN"
        ((s.pastWord draft spelled).context.tokenAhead? (s.pastWord draft spelled).cursor.ahead))
      (s.pastWord draft spelled).context = true := by
    rw [grammar, BlockGrammar.opens, Bool.or_false, BlockGrammar.opensCommon, asWord]
    exact Bool.not_eq_true' _ ▸ next
  rw [pass_of_seen std seen, text, takeWord_name (by decide) (by rw [grammar, asks_common]),
    if_pos opens] at h
  cases h
  exact List.cons_ne_nil _ _

/-- A word other than these is passed as a whole, and nothing but the draft takes note of it. -/
theorem pass_of_other (std : s.dialect.Standard) {word : List Char} {transaction : Bool}
    (seen : s.sight draft = .word word transaction)
    (plain : String.ofList (upper word) ∉ ["BEGIN", "CASE", "END"]) :
    s.pass draft = .more (s.pastWord draft word) (some (s.draftPast draft word)) := by
  have grammar : (s.pastWord draft word).dialect.blocks = .common := std.blocks
  have other : String.ofList (upper word) ∉ "END" :: BlockGrammar.common.openers := by
    simp only [List.mem_cons, List.not_mem_nil, or_false, not_or] at plain
    simp [BlockGrammar.openers, plain]
  rw [pass_of_seen std seen, takeWord_unlisted (grammar ▸ other) (by rw [grammar, asks_common])]
  rfl

variable {y : Draft} {dialect : Dialect} {d : Delimiter} {p q blanks rest : List Char}

/-- The first reading stands before `p`, the rest of the text, and what follows it; the second
before `p` alone. -/
structure Excerpted (dialect : Dialect) (d : Delimiter) (blanks rest p : List Char)
    (s : Session) (draft : Option Draft) (s' : Session) (draft' : Option Draft) : Prop where
  alike : Alike s draft s' draft'
  ongoing : Ongoing dialect d s draft
  ahead : s.cursor.ahead = p ++ (blanks ++ rest)
  ahead' : s'.cursor.ahead = p

theorem delimiterLength?_eq_none_iff (inline : s.context.delimiter.aloneOnLine = false) :
    s.delimiterLength? = none ↔ s.context.blocks ≠ [] ∨ 0 < s.context.parens ∨
      s.context.delimiter.startsAt s.cursor.ahead = false := by
  by_cases outside : s.context.blocks = []
  · by_cases parens : s.context.parens ≤ 0
    · have above : ¬ 0 < s.context.parens := Int32.not_lt.mpr parens
      simp [delimiterLength?, Context.blockDepth, outside, parens, above, inline]
    · have above : 0 < s.context.parens := Int32.not_le.mp parens
      simp [delimiterLength?, Context.blockDepth, outside, parens, above, inline]
  · simp [delimiterLength?, Context.blockDepth, outside]

theorem delimiterLength?_alone_eq_none_iff (alone : s.context.delimiter.aloneOnLine = true) :
    s.delimiterLength? = none ↔
      s.context.blocks ≠ [] ∨ s.cursor.atLineOf s.context.delimiter = false := by
  by_cases outside : s.context.blocks = []
  · simp [delimiterLength?, Context.blockDepth, outside, alone]
  · simp [delimiterLength?, Context.blockDepth, outside]

/-- A delimiter that is not seen in the script is not seen in the text alone. -/
theorem Excerpted.delimiterLength? (h : Excerpted dialect d blanks rest p s draft s' draft')
    (inline : d.aloneOnLine = false) (outside : s.delimiterLength? = none) :
    s'.delimiterLength? = none := by
  have delimiter := h.ongoing.steady.delimiter
  have delimiter' := h.alike.delimiter.trans delimiter
  rw [delimiterLength?_eq_none_iff (by rw [delimiter]; exact inline)] at outside
  rw [delimiterLength?_eq_none_iff (by rw [delimiter']; exact inline)]
  rcases outside with inside | parens | starts
  · exact Or.inl (by rw [h.alike.blocks]; exact inside)
  · exact Or.inr (Or.inl (by rw [h.alike.parens]; exact parens))
  · rw [delimiter, h.ahead] at starts
    refine Or.inr (Or.inr ?_)
    rw [delimiter', h.ahead']
    exact startsAt_alone starts

/-- Where the same is seen, the same is done. -/
theorem Excerpted.step (std : dialect.Standard)
    (h : Excerpted dialect d blanks rest p s draft s' draft')
    (step : Step s draft t (some y)) (same : s'.sight draft' = s.sight draft)
    (fits : (s.sight draft).length ≤ p.length) :
    ∃ t' y', Step s' draft' t' (some y') ∧
      Excerpted dialect d blanks rest (p.drop (s.sight draft).length) t (some y) t' (some y') := by
  have std' : s.dialect.Standard := h.ongoing.steady.dialect ▸ std
  have matched := matched_pass std' h.alike same
  rw [pass_of_step step] at matched
  generalize pass' : s'.pass draft' = r at matched
  cases matched with
  | @more _ t' _ e' alike cursor cursor' =>
    obtain ⟨y', rfl⟩ : ∃ y', e' = some y' := by
      cases alike.drafts
      exact ⟨_, rfl⟩
    refine ⟨t', y', step_of_pass pass', alike, h.ongoing.step std step, ?_, ?_⟩
    · rw [cursor, Cursor.skip_ahead, h.ahead, List.drop_append_of_le_length fits]
    · rw [cursor', Cursor.skip_ahead, h.ahead']

/-- A step that reads on in a statement has met no delimiter. -/
theorem not_delimiter_of_step (std : s.dialect.Standard) (h : Step s draft t (some y)) (n : Nat) :
    s.sight draft ≠ .gap (.delimiter n) := by
  intro seen
  have pass := pass_of_step h
  rw [pass_of_sight std, seen] at pass
  cases draft <;> cases pass

/-- What a step leaves still ends with `rest`: no more is taken than what is before that. -/
theorem take_before_rest {cs before w : List Char} {n : Nat} (split : cs = before ++ rest)
    (left : cs.drop n = w ++ rest) (fits : n ≤ cs.length) :
    n ≤ before.length ∧ w = before.drop n := by
  have short : n ≤ before.length := by
    have lengths := congrArg List.length left
    rw [List.length_drop, List.length_append] at lengths
    rw [split, List.length_append] at lengths fits
    omega
  rw [split, List.drop_append_of_le_length short] at left
  exact ⟨short, (List.append_cancel_right left).symm⟩

/-- A comment that ends with its line goes on over the blanks after the text. -/
theorem Excerpted.line (std : dialect.Standard)
    (h : Excerpted dialect d blanks rest p s draft s' draft')
    (step : Step s draft t (some y)) {c : Char} {q : List Char} (head : p = c :: q)
    (solid : isBlank c = false) (outside : s'.delimiterLength? = none)
    (blank : ∀ c ∈ blanks, isBlank c = true) (opens : s.dialect.OpensLine s.cursor.ahead)
    (seen : s.sight draft = .gap (.comment (.closed (lineLength s.cursor.ahead))))
    (beyond : p.length < lineLength s.cursor.ahead)
    (within : lineLength s.cursor.ahead ≤ p.length + blanks.length) :
    ∃ t' y', Step s' draft' t' (some y') ∧ Alike t (some y) t' (some y') ∧
      t'.cursor.ahead = [] := by
  have std' : s.dialect.Standard := h.ongoing.steady.dialect ▸ std
  have std'' : s'.dialect.Standard := h.alike.dialect ▸ std'
  have whole : lineLength p = p.length := by
    have oneLine : '\n' ∉ p := by
      intro mem
      rw [h.ahead, lineLength, currentLine_of_mem mem] at beyond
      exact absurd (lineLength_le p) (Nat.not_le_of_lt beyond)
    exact Nat.le_antisymm (lineLength_le p) (length_le_lineLength oneLine List.prefix_rfl)
  have opens' : s'.dialect.comment? p = some (.closed p.length) := by
    have gap : blanks ≠ [] := by
      rintro rfl
      exact absurd within (Nat.not_le_of_lt beyond)
    rw [h.ahead] at opens
    rw [Dialect.comment?, if_pos, whole]
    rw [Bool.or_eq_true, List.isPrefixOf_iff_prefix, h.alike.dialect]
    rcases opens with dashes | ⟨hashes, hash⟩
    · exact Or.inl (prefix_of_blanks (by decide) blank gap dashes)
    · rw [head, List.cons_append, List.head?_cons] at hash
      exact Or.inr (by simp [hashes, head, Option.some.inj hash])
  have seen' : s'.sight draft' = .gap (.comment (.closed p.length)) := by
    have standing : s'.atTerminator = false := by
      rw [atTerminator, std''.terminator]
      rfl
    rw [head] at opens'
    simp [sight, h.ahead', head, gap?, solid, outside, standing, opens']
  have pass := pass_of_sight std' draft
  have pass' := pass_of_sight std'' draft'
  rw [seen, pass_of_step step] at pass
  rw [seen'] at pass'
  cases pass
  obtain ⟨y', rfl⟩ : ∃ y', draft' = some y' := by
    cases h.alike.drafts
    exact ⟨_, rfl⟩
  refine ⟨_, y', step_of_pass pass', h.alike.skip _ _, ?_⟩
  rw [skip_cursor, Cursor.skip_ahead, h.ahead', List.drop_length]

/-- A word with a digit is none of those that blocks go by. -/
theorem notBlockWord_of_digit {word : List Char} {x : Char} (mem : x ∈ word)
    (digit : x.isDigit = true) : String.ofList (upper word) ∉ ["BEGIN", "CASE", "END"] := by
  intro listed
  have plain : ∀ text ∈ ["BEGIN", "CASE", "END"], ∀ c ∈ text.toList, c.isDigit = false := by
    decide +kernel
  have letter := plain _ listed x
  rw [String.toList_ofList] at letter
  rw [letter (List.mem_map.mpr ⟨x, mem, toUpper_of_isDigit digit⟩)] at digit
  cases digit

/-- Before a word there is no delimiter. -/
theorem delimiterLength?_of_word {spelled : List Char} {transaction : Bool}
    (seen : s.sight draft = .word spelled transaction) : s.delimiterLength? = none := by
  rw [Session.sight] at seen
  split at seen
  · cases seen
  · split at seen
    · cases seen
    · next solid => exact (gap?_eq_none_iff.mp solid).2.1

/-- A word that is not cut short is the same without what comes after the text. -/
theorem Excerpted.wordAhead (h : Excerpted dialect d blanks rest p s draft s' draft')
    (framed : Framed dialect d blanks rest) {word : List Char} {transaction : Bool}
    (seen : s.sight draft = .word word transaction)
    (whole : ∀ word, ¬ s.CutShort draft p word) :
    (s.scope draft).wordAhead p = (s.scope draft).wordAhead (p ++ (blanks ++ rest)) := by
  have sees := seesWord_of_sight seen
  rw [h.ahead, Context.seesWord, Sight.word.injEq] at sees
  obtain ⟨more, longer⟩ :=
    Context.wordAhead_append_prefix (p := p) (framed.word_stops h.ongoing.scope_delimiter)
  cases more with
  | nil => rw [← longer, List.append_nil]
  | cons x more =>
    refine absurd ⟨⟨word, transaction, x :: more, seen, ?_, List.cons_ne_nil x more⟩, rfl⟩
      (whole ((s.scope draft).wordAhead p))
    rw [← sees.1, longer]

/-- A token or a comment that ends within the text is the same without what comes after, if no word
is cut short. -/
theorem Excerpted.sight (framed : Framed dialect d blanks rest) (std : s.dialect.Standard)
    (h : Excerpted dialect d blanks rest p s draft s' draft') (nonempty : p ≠ [])
    (whole : ∀ word, ¬ s.CutShort draft p word) (step : Step s draft t (some y)) {w : List Char}
    (left : t.cursor.ahead = w ++ rest)
    (ends : t.context.blocks ≠ [] → 'N' ∈ upper w ∧ 'D' ∈ upper w)
    (outside : s'.delimiterLength? = s.delimiterLength?)
    (fits : (s.sight draft).length ≤ p.length) : s'.sight draft' = s.sight draft := by
  have pass := pass_of_step step
  have closed : (s.sight draft).Closed := closed_of_pass std (by rw [pass]; simp)
  refine h.alike.sight_seam (.ends _) std nonempty h.ahead
    (h.ahead'.trans (List.append_nil p).symm) closed fits outside ?_
  rintro ⟨word, transaction, seen⟩
  rw [List.append_nil]
  apply framed.seesWord_eq h.ongoing.kind h.ongoing.scope_delimiter
    (h.wordAhead framed seen whole)
  intro spelled sees text
  have here := seesWord_of_sight seen
  rw [h.ahead, sees] at here
  cases here
  rw [seen] at fits
  rw [more_moves std pass, seen, Cursor.skip_ahead, h.ahead, List.drop_append_of_le_length fits,
    ← List.append_assoc] at left
  have rest' : p.drop word.length ++ blanks = w := List.append_cancel_right left
  rw [rest']
  exact ends (opened_of_begin std seen text pass)

/-- A word that is cut short in the script is whole in the text alone, and goes into the draft. -/
theorem Excerpted.word (framed : Framed dialect d blanks rest) (std : dialect.Standard)
    (h : Excerpted dialect d blanks rest p s draft s' draft') {word : List Char}
    (cut : s.CutShort draft p word) :
    Step s' draft' (s'.pastWord draft' word) (some (s'.draftPast draft' word)) ∧
      Excerpted dialect d blanks rest (p.drop word.length) (s.pastWord draft word)
        (some (s.draftPast draft word).wordless) (s'.pastWord draft' word)
        (some (s'.draftPast draft' word)) := by
  have std' : s.dialect.Standard := h.ongoing.standard std
  have std'' : s'.dialect.Standard := h.alike.dialect ▸ std'
  obtain ⟨x, mem, digit, -⟩ := cut.digit h.ongoing framed.plain h.ahead
  have within : word.length ≤ p.length := by
    rw [← cut.alone]
    exact List.IsPrefix.length_le (Context.wordAhead_prefix (s.scope draft) p)
  have plain := notBlockWord_of_digit mem digit
  have seen' : ∃ transaction, s'.sight draft' = .word word transaction := by
    obtain ⟨read, transaction, more, seen, whole, -⟩ := cut.sees
    have outside := delimiterLength?_of_word seen
    have fits : (s.sight draft).length ≤ p.length := by
      rw [seen]
      refine Nat.le_trans ?_ within
      rw [whole, List.length_append]
      exact Nat.le_add_right _ _
    have nonempty : p ≠ [] := by
      rintro rfl
      exact cut.ne_nil (List.eq_nil_of_length_eq_zero (Nat.le_zero.mp within))
    have sight := h.alike.sight_seam_word (.ends _) std' nonempty h.ahead
      (h.ahead'.trans (List.append_nil p).symm) (by rw [seen]; trivial) fits
      ((h.delimiterLength? framed.inline outside).trans outside.symm)
    rw [seen, List.append_nil] at sight
    exact ⟨_, by rw [sight, Context.seesWord, cut.alone]⟩
  obtain ⟨transaction, seen'⟩ := seen'
  refine ⟨step_of_pass (pass_of_other std'' seen' plain), ?_⟩
  refine ⟨(h.alike.begun.skip _ _).of_drafts (.some ⟨?_, ?_⟩) (fun _ => rfl),
    h.ongoing.pastWord std word _, ?_, ?_⟩
  · exact (Draft.isEmpty_afterWord _ _).trans (Draft.isEmpty_afterWord _ _).symm
  · have other : String.ofList (upper word) ≠ "END" := by
      intro same
      rw [same] at plain
      exact plain (by decide)
    exact beq_eq_false_iff_ne.mpr fun same => other (Option.some.inj same)
  · rw [pastWord_ahead, h.ahead, List.drop_append_of_le_length within]
  · rw [pastWord_ahead, h.ahead']

/-- What goes on beyond the text is a comment that ends with its line. -/
theorem Excerpted.overrun (framed : Framed dialect d blanks rest) (std : dialect.Standard)
    (closers : ∀ pair ∈ dialect.identifierQuotes, isBlank pair.2 = false)
    (h : Excerpted dialect d blanks rest p s draft s' draft') {c : Char} {q : List Char}
    (head : p = c :: q) (solid : isBlank c = false) (step : Step s draft t (some y)) {w : List Char}
    (left : t.cursor.ahead = w ++ rest) (outside : s'.delimiterLength? = none)
    (beyond : p.length < (s.sight draft).length) :
    ∃ t' y', Step s' draft' t' (some y') ∧ Alike t (some y) t' (some y') ∧ t'.cursor.ahead = [] ∧
      ∀ c ∈ w, isBlank c = true := by
  have std' : s.dialect.Standard := h.ongoing.steady.dialect ▸ std
  have pass := pass_of_step step
  have closed : (s.sight draft).Closed := closed_of_pass std' (by rw [pass]; simp)
  rw [more_moves std' pass, Cursor.skip_ahead] at left
  have split : s.cursor.ahead = (p ++ blanks) ++ rest := by rw [h.ahead, List.append_assoc]
  cases ends_of_sight std' (h.ongoing.steady.dialect ▸ closers) closed
    (not_delimiter_of_step std' step) with
  | nothing empty => exact absurd (empty ▸ beyond) (Nat.not_lt_zero _)
  | blank seen =>
    rw [seen, head] at beyond
    exact absurd beyond (Nat.not_lt_of_le (Nat.succ_le_succ (Nat.zero_le q.length)))
  | solid ends =>
    obtain ⟨k, x, length, last, visible⟩ := ends
    rw [length] at left beyond
    have inside := (List.getElem?_eq_some_iff.mp last).1
    obtain ⟨short, -⟩ := take_before_rest split left inside
    rw [split, List.getElem?_append_left short,
      List.getElem?_append_right (Nat.le_of_lt_succ beyond)] at last
    rw [framed.blank x (List.mem_of_getElem? last)] at visible
    cases visible
  | line opens seen =>
    rw [seen] at left beyond
    obtain ⟨short, taken⟩ := take_before_rest split left (lineLength_le _)
    rw [List.length_append] at short
    obtain ⟨t', y', step', alike, done⟩ := h.line std step head solid outside framed.blank opens
      seen beyond short
    refine ⟨t', y', step', alike, done, ?_⟩
    rw [taken, List.drop_append, List.drop_of_length_le (Nat.le_of_lt beyond), List.nil_append]
    exact fun x mem => framed.blank x (List.mem_of_mem_drop mem)

/-- A step within the text, before `p`. -/
theorem step_excerpted (framed : Framed dialect d blanks rest) (std : dialect.Standard)
    (closers : ∀ pair ∈ dialect.identifierQuotes, isBlank pair.2 = false)
    (h : Excerpted dialect d blanks rest p s draft s' draft') (nonempty : p ≠ [])
    (whole : ∀ word, ¬ s.CutShort draft p word) (step : Step s draft t (some y)) {w : List Char}
    (left : t.cursor.ahead = w ++ rest)
    (ends : t.context.blocks ≠ [] → 'N' ∈ upper w ∧ 'D' ∈ upper w) :
    ∃ t' y', Step s' draft' t' (some y') ∧
      ((∃ p', Excerpted dialect d blanks rest p' t (some y) t' (some y')) ∨
        Alike t (some y) t' (some y') ∧ t'.cursor.ahead = [] ∧ ∀ c ∈ w, isBlank c = true) := by
  have std' : s.dialect.Standard := h.ongoing.steady.dialect ▸ std
  have within : s'.sight draft' = s.sight draft → (s.sight draft).length ≤ p.length →
      ∃ t' y', Step s' draft' t' (some y') ∧
        ∃ p', Excerpted dialect d blanks rest p' t (some y) t' (some y') := by
    intro same fits
    obtain ⟨t', y', step', later⟩ := h.step std step same fits
    exact ⟨t', y', step', _, later⟩
  obtain ⟨c, q, head⟩ := List.exists_cons_of_ne_nil nonempty
  cases solid : isBlank c with
  | true =>
    have seen : s.sight draft = .gap .blank := by
      simp only [Session.sight, h.ahead, head, List.cons_append, gap?, solid, if_true]
    have seen' : s'.sight draft' = .gap .blank := by
      simp only [Session.sight, h.ahead', head, gap?, solid, if_true]
    have fits : (s.sight draft).length ≤ p.length := by
      rw [seen, head]
      exact Nat.succ_le_succ (Nat.zero_le _)
    obtain ⟨t', y', step', later⟩ := within (seen'.trans seen.symm) fits
    exact ⟨t', y', step', Or.inl later⟩
  | false =>
    have outside : s.delimiterLength? = none := by
      rw [Option.eq_none_iff_forall_ne_some]
      intro n found
      refine not_delimiter_of_step std' step n ?_
      simp only [Session.sight, h.ahead, head, List.cons_append, gap?, solid, found]
      rfl
    have outside' := h.delimiterLength? framed.inline outside
    by_cases fits : (s.sight draft).length ≤ p.length
    · have same := h.sight framed std' nonempty whole step left ends
        (outside'.trans outside.symm) fits
      obtain ⟨t', y', step', later⟩ := within same fits
      exact ⟨t', y', step', Or.inl later⟩
    · obtain ⟨t', y', step', later⟩ := h.overrun framed std closers head solid step left outside'
        (Nat.lt_of_not_le fits)
      exact ⟨t', y', step', Or.inr later⟩

/-- Blocks that are open in the statement are closed by its end. -/
theorem ends_of_mended (h : Mended after s draft u f) (closed : u.context.blocks = []) :
    ∃ w, s.cursor.ahead = w ++ u.cursor.ahead ∧ (s.context.blocks ≠ [] → 'N' ∈ upper w ∧ 'D' ∈ upper w) := by
  obtain ⟨w, split⟩ := mended_cut h
  refine ⟨w, split, ?_⟩
  intro opened
  obtain ⟨piece, whole, letters⟩ := mended_close h opened closed
  rw [List.append_cancel_right (split.symm.trans whole)]
  exact letters

/-- The statement is read to its end on its own, in step with the script as if its words were
whole. -/
theorem mended_excerpted {rest : List Char} (framed : Framed dialect d blanks rest)
    (std : dialect.Standard)
    (closers : ∀ pair ∈ dialect.identifierQuotes, isBlank pair.2 = false)
    (h : Mended (blanks ++ rest) s draft u f) (ended : u.cursor.ahead = rest)
    (closed : u.context.blocks = []) (into : ∀ r, ¬ Step s draft r none)
    (excerpted : Excerpted dialect d blanks rest p s draft s' draft') :
    ∃ u' f', Passes s' draft' u' f' ∧ u'.cursor.ahead = [] ∧ Alike u f u' f' ∧
      ∀ x ∈ f', x.start = (draft'.map (·.start)).getD s'.cursor := by
  generalize after : blanks ++ rest = after at h
  induction h generalizing p s' draft' with
  | refl s draft =>
    have ahead := excerpted.ahead
    rw [ended, ← List.append_assoc] at ahead
    have nothing := List.append_eq_nil_iff.mp (List.self_eq_append_left.mp ahead)
    refine ⟨s', draft', .refl s' draft', excerpted.ahead'.trans nothing.1, excerpted.alike, ?_⟩
    rintro x ⟨⟩
    rfl
  | @step s v u draft e f first shorter whole later ih =>
    by_cases empty : p = []
    · have ahead := excerpted.ahead
      rw [empty, List.nil_append, ← ended] at ahead
      refine ⟨s', draft', .refl s' draft', excerpted.ahead'.trans empty,
        mended_beyond (.step first shorter whole later) excerpted.alike ahead framed.blank, ?_⟩
      rintro x ⟨⟩
      rfl
    · cases e with
      | none => exact absurd first (into v)
      | some y =>
        obtain ⟨w, left, ends⟩ := ends_of_mended later closed
        rw [ended] at left
        have ahead := excerpted.ahead
        rw [after] at ahead
        obtain ⟨t', y', step', ⟨p', later'⟩ | ⟨alike, done, blank⟩⟩ :=
          step_excerpted framed std closers excerpted empty (fun word => whole p word ahead) first
            left ends
        · have again : ∀ r, ¬ Step v (some y) r none := fun r => later'.ongoing.reads std
          obtain ⟨u', f', passes, done, alike, start⟩ := ih ended closed again later'
          refine ⟨u', f', .step step' passes, done, alike, ?_⟩
          exact fun x mem => (start x mem).trans (step_start step')
        · rw [← ended] at left
          refine ⟨t', some y', .step step' (.refl t' (some y')), done,
            mended_beyond later alike left blank, ?_⟩
          rintro x ⟨⟩
          exact step_start step'
  | @word s u draft f q word ahead cut later ih =>
    rw [← after] at ahead
    obtain rfl := List.append_cancel_right (ahead.symm.trans excerpted.ahead)
    obtain ⟨step', later'⟩ := excerpted.word framed std cut
    have again : ∀ r, ¬ Step _ (some _) r none := fun r => later'.ongoing.reads std
    obtain ⟨u', f', passes, done, alike, start⟩ := ih ended closed again later'
    refine ⟨u', f', .step step' passes, done, alike, ?_⟩
    exact fun x mem => (start x mem).trans (step_start step')
  | alike alike place later ih =>
    have ongoing := excerpted.ongoing.of_alike std alike
    have again : ∀ r, ¬ Step _ (some _) r none := fun r => ongoing.reads std
    exact ih ended closed again
      ⟨alike.trans excerpted.alike, ongoing, place ▸ excerpted.ahead, excerpted.ahead'⟩

theorem passes_start {x : Draft} (h : Passes s (some y) u (some x))
    (plain : s.dialect.delimiterDirective = false) : x.start = y.start := by
  generalize held : some y = draft, held' : some x = f at h
  induction h generalizing y with
  | refl =>
    subst held
    cases held'
    rfl
  | @step s v u draft e f first rest ih =>
    subst held
    cases e with
    | none =>
      rw [directive_of_step first] at plain
      cases plain
    | some z =>
      rw [ih (by rw [step_dialect first]; exact plain) rfl held', step_start first]
      rfl

end Session

open Session

/-- The session stands before a word of the statement that is cut short: `word` is the whole word in
the rest of the statement's text. -/
structure Statement.CutsWord (statement : Statement) (s : Session) (draft : Option Draft)
    (text word : List Char) : Prop where
  start : statement.start ≤ s.cursor.offset
  ahead : text <+: s.cursor.ahead
  stop : s.cursor.offset + byteSize text = statement.stop
  cut : s.CutShort draft text word

theorem closers_solid {v : Vendor} (vendor : v = .generic ∨ v = .postgres ∨ v = .sqlserver) :
    ∀ pair ∈ v.dialect.identifierQuotes, isBlank pair.2 = false := by
  rcases vendor with rfl | rfl | rfl
  · decide
  · decide
  · decide

/-- What a whole reading of the statement's text alone starts from. -/
theorem excerpted_ofScript {s : Session} {dialect : Dialect} {d : Delimiter}
    {text blanks rest : List Char} (steady : s.Steady dialect d none)
    (closed : s.context.blocks = []) (level : s.context.parens = 0)
    (ahead : s.cursor.ahead = text ++ (blanks ++ rest)) :
    Excerpted dialect d blanks rest text s none
      (.ofScript dialect d (String.ofList text)) none where
  alike := by
    refine ⟨steady.dialect.symm, steady.delimiter.symm, steady.script.symm, level.symm, closed.symm,
      steady.live.symm, ?_, .none⟩
    rintro ⟨⟩
  ongoing := ⟨steady, steady.dialect ▸ rfl⟩
  ahead := ahead
  ahead' := String.toList_ofList

theorem trimEnd_trimEnd (cs : List Char) : trimEnd (trimEnd cs) = trimEnd cs := by
  simp only [trimEnd, List.reverse_reverse, List.dropWhile_idempotent]

/-- A statement is found before its delimiter or at the end. -/
theorem closes_of_found {u t : Session} {f : Option Draft} {statement : Statement} {d : Delimiter}
    (found : u.pass f = .found t statement) (active : u.context.delimiter = d)
    (inline : d.aloneOnLine = false) :
    u.cursor.ahead = [] ∨ d.startsAt u.cursor.ahead = true := by
  obtain ⟨x, -, -, ⟨c, rest, n, -, gap, -⟩ | ⟨ended, -⟩⟩ := pass_found found
  · obtain ⟨-, ⟨alone, -⟩ | ⟨-, starts, -⟩⟩ := delimiterLength?_eq_some (delimiter_of_gap? gap).2
    · rw [active, inline] at alone
      cases alone
    · exact Or.inr (active ▸ starts)
  · exact Or.inl ended

/-- A word that is cut short on the way from the beginning of the statement is one of its words. -/
theorem Statement.Spans.cutsWord {statement : Statement} {s w : Session} {g : Option Draft}
    {passed text p word after : List Char} (spans : statement.Spans passed text)
    (here : s.cursor = .between passed s.cursor.ahead) (ahead : s.cursor.ahead = text ++ after)
    (reached : Passes s none w g) (before : w.cursor.ahead = p ++ after)
    (cut : w.CutShort g p word) : statement.CutsWord w g p word := by
  obtain ⟨more, split, moved⟩ := passes_cut reached
  have place := moved here
  have parts : text = more ++ p := by
    rw [ahead, before, ← List.append_assoc] at split
    exact List.append_cancel_right split
  refine ⟨?_, before ▸ List.prefix_append _ _, ?_, cut⟩
  · rw [spans.start, place]
    exact Nat.le_trans (Nat.le_add_right _ _) (byteSize_append passed more).ge
  · rw [spans.stop, parts, place, ← byteSize_append, ← List.append_assoc, byteSize_append]
    rfl

/-- Whether the word that is read here is whole before `p` alone. -/
def Session.readsWhole (s : Session) (draft : Option Draft) (p : List Char) : Bool :=
  match s.sight draft with
  | .word cut _ => (s.scope draft).wordAhead p == cut
  | _ => true

theorem Session.not_cutShort {s : Session} {draft : Option Draft} {p word : List Char}
    (h : s.readsWhole draft p = true) : ¬ s.CutShort draft p word := by
  rintro ⟨⟨cut, transaction, more, seen, rfl, longer⟩, alone⟩
  simp only [readsWhole, seen, beq_iff_eq] at h
  exact longer (List.append_right_eq_self.mp (alone.symm.trans h))

/-- A statement of a script, split alone, is the one statement of its own text. -/
theorem splitFrom_statement (v : Vendor) (d : Delimiter) (script : String)
    (statements : List Statement) (statement : Statement)
    (vendor : v = .generic ∨ v = .postgres ∨ v = .sqlserver) (inline : d.aloneOnLine = false)
    (wordless : d.Wordless v.dialect) (fit : ParensFit script.toList)
    (split : splitFrom v.dialect d script = .ok statements) (mem : statement ∈ statements)
    (rejoins : ∀ s draft found text word, Visits v.dialect d script s draft found →
      statement.CutsWord s draft text word → s.Rejoins draft word) :
    splitFrom v.dialect d statement.sql =
      .ok [⟨1, 0, statement.sql.utf8ByteSize, statement.sql, d⟩] := by
  have std := Vendor.standard vendor
  obtain ⟨u, f, before, t, visits, found⟩ := visits_of_mem std .start split mem
  obtain ⟨x, rfl, cut, -⟩ := pass_found found
  obtain ⟨s, t₀, y, earlier, origin, first, rest, -⟩ := visits_begun visits
  have steady := visits_steady std origin
  have passes : Passes s none u (some x) := .step first rest
  obtain ⟨passed, script', here⟩ := visits_place origin
  obtain ⟨piece, ahead, moves⟩ := passes_cut passes
  obtain ⟨blanks, trim, blank⟩ := trimEnd_append_blanks piece
  have start : x.start = .between passed (piece ++ u.cursor.ahead) := by
    rw [passes_start rest (by rw [step_dialect first, steady.dialect]; exact std.directive),
      step_start first, ← ahead]
    exact here
  have spans : statement.Spans passed (trimEnd piece) := by
    rw [cut, moves here]
    exact spans_cut start
  rw [trim, List.append_assoc] at ahead
  rw [ahead] at script'
  have closes := closes_of_found found (visits_steady std visits).delimiter inline
  have framed : Framed v.dialect d blanks u.cursor.ahead := ⟨inline, wordless, blank, closes⟩
  obtain ⟨closed, level | ended⟩ := visits_outside std inline fit origin
  case inr => exact absurd ended (step_ahead first)
  have into : ∀ r, ¬ Step s none r none := by
    intro r given
    have same := (pass_of_step given).symm.trans (pass_of_step first)
    cases same
  have ongoing : Ongoing v.dialect d s none := ⟨steady, steady.dialect ▸ rfl⟩
  obtain ⟨y', mended⟩ := mended_of_passes std wordless passes found ongoing into (Or.inl rfl)
    fun w g p word reached before cut => rejoins w g earlier p word (visits_passes origin reached)
      (spans.cutsWord here ahead reached before cut)
  have nested := outside_of_found found
  obtain ⟨u', f', passes', ended, alike, begun⟩ := mended_excerpted framed std
    (closers_solid vendor) mended rfl nested into (excerpted_ofScript steady closed level ahead)
  obtain ⟨x', rfl⟩ : ∃ x', f' = some x' := by
    cases alike.drafts
    exact ⟨_, rfl⟩
  have found' : u'.pass (some x') = .found u'.restored (u'.cut x' u'.cursor) := by
    rw [pass_of_end ended, finish_outside (alike.blocks.trans nested)]
  have split' : (String.ofList (trimEnd piece)).toList = trimEnd piece ++ u'.cursor.ahead := by
    rw [ended, List.append_nil, String.toList_ofList]
  have nothing : ∀ c ∈ u'.restored.cursor.ahead, isBlank c = true := by
    intro c mem
    change c ∈ u'.cursor.ahead at mem
    rw [ended] at mem
    cases mem
  have alone := (splitFrom_of_single passes' (begun x' rfl) split' found' nothing).1
  have delimiter : u'.context.delimiter = d :=
    alike.delimiter.trans (visits_steady std visits).delimiter
  rw [spans.sql, alone, trimEnd_trimEnd, delimiter, byteSize_eq_utf8ByteSize]

/-- The delimiter cuts the word in the parentheses, and the rest of it is read as a symbol. -/
theorem splitFrom_statement_name :
    splitFrom .generic (.inline "1)1") "BEGIN --1)1\nEND (a1)1)1" =
        .ok [⟨1, 0, 20, "BEGIN --1)1\nEND (a1)", .inline "1)1"⟩] ∧
      splitFrom .generic (.inline "1)1") "BEGIN --1)1\nEND (a1)" =
        .ok [⟨1, 0, "BEGIN --1)1\nEND (a1)".utf8ByteSize, "BEGIN --1)1\nEND (a1)", .inline "1)1"⟩] := by
  have split : splitFrom .generic (.inline "1)1") "BEGIN --1)1\nEND (a1)1)1" =
      .ok [⟨1, 0, 20, "BEGIN --1)1\nEND (a1)", .inline "1)1"⟩] := by decide +kernel
  refine ⟨split, ?_⟩
  refine splitFrom_statement .generic (.inline "1)1") _ _
    ⟨1, 0, 20, "BEGIN --1)1\nEND (a1)", .inline "1)1"⟩ (Or.inl rfl) rfl
    (by decide +kernel) (by decide +kernel) split (by simp) ?_
  intro s draft found text word visits cuts
  let start := ofScript Vendor.generic.dialect (.inline "1)1") "BEGIN --1)1\nEND (a1)1)1"
  let run := trail 20 start none
  let state (k : Nat) := run.getD k (start, none)
  have mem : (s, draft) ∈ run := mem_trail (by decide +kernel) visits
  have states : ∀ x ∈ run, ∀ k ≤ 23,
      x.1.cursor.offset + byteSize (x.1.cursor.ahead.take k) = 20 →
      x.1.readsWhole x.2 (x.1.cursor.ahead.take k) = true ∨
        x = state 7 ∧ (x.1.scope x.2).wordAhead (x.1.cursor.ahead.take k) = "a1".toList := by
    decide +kernel
  have short : ∀ x ∈ run, x.1.cursor.ahead.length ≤ 23 := by decide +kernel
  have text' : s.cursor.ahead.take text.length = text :=
    (List.prefix_iff_eq_take.mp cuts.ahead).symm
  have within := Nat.le_trans cuts.ahead.length_le (short _ mem)
  rcases states _ mem text.length within (by rw [text']; exact cuts.stop) with whole | ⟨here, name⟩
  · rw [text'] at whole
    exact absurd cuts.cut (not_cutShort whole)
  · rw [text', cuts.cut.alone] at name
    subst name
    obtain ⟨rfl, rfl⟩ := Prod.mk.inj here
    have first : (state 7).1.pass (state 7).2 = .more (state 8).1 (state 8).2 := by decide +kernel
    have second : (state 8).1.pass (state 8).2 = .more (state 9).1 (state 9).2 := by decide +kernel
    have passes : Passes (state 7).1 (state 7).2 (state 9).1 (state 9).2 :=
      .step (step_of_pass first) (.step (step_of_pass second) (.refl _ _))
    have last : ∀ x ∈ (state 9).2, x.previous ≠ some "END" := by decide +kernel
    cases draft' : (state 9).2 with
    | none => exact absurd draft' (by decide +kernel)
    | some x =>
      rw [draft'] at passes
      refine ⟨_, x, _, _, passes, ⟨rfl, .refl _ _⟩, ?_, ?_, ?_, ?_⟩
      · decide +kernel
      · decide +kernel
      · decide +kernel
      · exact fun ended => absurd ended (last x draft')

/-- In the script the delimiter cuts the word after the first parenthesis to an `END`, but it ends
behind the statement. On its own the statement has no `END`, and its block stays open. -/
theorem splitFrom_statement_overrun :
    (Delimiter.inline "1)1").Wordless .generic ∧
      splitFrom .generic (.inline "1)1") "BEGIN (END1)1)1" =
        .ok [⟨1, 0, 12, "BEGIN (END1)", .inline "1)1"⟩] ∧
      splitFrom .generic (.inline "1)1") "BEGIN (END1)" = .error (.unclosedBlock "BEGIN" 1) := by
  decide +kernel

/-- An `END` that is cut off and closes no block keeps the `CASE` after it from opening one. On its
own there is no such `END`, and the block of the `CASE` stays open. -/
example :
    splitFrom .generic (.inline "1)CASE 1") "(END1)CASE 1)CASE 1" =
        .ok [⟨1, 0, 10, "(END1)CASE", .inline "1)CASE 1"⟩] ∧
      splitFrom .generic (.inline "1)CASE 1") "(END1)CASE" = .error (.unclosedBlock "CASE" 1) := by
  decide +kernel

/-- The last letter of a word that is cut begins a literal with backslashes in it. On its own the
literal after the word has none, and is not closed. -/
example :
    splitFrom .postgres (.inline "1E'\\'')1") "(a1E'\\'')1E'\\'')1" =
        .ok [⟨1, 0, 9, "(a1E'\\'')", .inline "1E'\\'')1"⟩] ∧
      splitFrom .postgres (.inline "1E'\\'')1") "(a1E'\\'')" =
        .error (.unterminated .stringLiteral 1) := by
  decide +kernel

end SqlBoundary
