import SqlBoundary.Proofs.Frame
import SqlBoundary.Proofs.Text

/-!
# Progress

Every step takes at least one character, except at a word that the active delimiter cuts
down to nothing. There the session is stuck: no later pass changes it. So the bound that
`run` counts down can be forgotten, and reading is described by what a pass does alone.
-/

namespace SqlBoundary

open Text Lexeme

theorem lineLength_pos {c : Char} (h : isBlank c = false) (rest : List Char) :
    0 < lineLength (c :: rest) := by
  simp [lineLength, currentLine, ne_lineFeed_of_solid h]

namespace Dialect

variable {dialect : Dialect} {c : Char} {rest : List Char} {n : Nat}

theorem comment?_pos (solid : isBlank c = false)
    (h : dialect.comment? (c :: rest) = some (.closed n)) : 0 < n := by
  rw [comment?] at h
  split at h
  · cases h
    exact lineLength_pos solid rest
  · split at h
    · split at h
      · cases h
        omega
      · cases h
    · cases h

theorem token_text_pos {p : Char → Bool}
    (h : dialect.token p c rest = .text (.closed n)) : 0 < n := by
  rw [token] at h
  split at h
  · next tag _ =>
    simp only [dollarExtent] at h
    split at h
    · cases h
      omega
    · cases h
  · split at h
    · next q _ =>
      simp only [Quote.extent] at h
      split at h
      · next closed =>
        cases h
        exact Nat.lt_of_le_of_lt (Nat.zero_le _) (quotedEnd?_lt closed)
      · cases h
    · split at h <;> cases h

end Dialect

/-- Only the name of a kind of unit, or the first word, tells that a statement is a unit. -/
theorem isUnit_append {leading : List String} {word : String}
    (plain : word ∉ BlockGrammar.unitWords)
    (later : leading ≠ [] ∨ word ∉ ["DECLARE", "BEGIN"]) :
    BlockGrammar.isUnit (leading ++ [word]) = BlockGrammar.isUnit leading := by
  have modifier : ∀ found, [word].find? (!BlockGrammar.createModifiers.contains ·) = some found →
      BlockGrammar.unitWords.contains found = false := by
    intro found same
    obtain rfl := List.mem_singleton.mp (List.mem_of_find?_eq_some same)
    simpa using plain
  cases leading with
  | nil =>
    have other : word ∉ ["DECLARE", "BEGIN"] := later.resolve_left (fun none => none rfl)
    simp only [List.mem_cons, List.not_mem_nil, or_false, not_or] at other
    by_cases create : word = "CREATE"
    · rw [create]
      rfl
    · simp [BlockGrammar.isUnit, other, create]
  | cons first rest =>
    by_cases declare : first = "DECLARE"
    · rw [declare]
      rfl
    · by_cases begin : first = "BEGIN"
      · rw [begin]
        rfl
      · by_cases create : first = "CREATE"
        · rw [create, List.cons_append]
          simp only [BlockGrammar.isUnit]
          rw [← List.cons_append, List.find?_append]
          cases ("CREATE" :: rest).find? (!BlockGrammar.createModifiers.contains ·) with
          | some word => rfl
          | none =>
            rw [Option.none_or]
            cases found : [word].find? (!BlockGrammar.createModifiers.contains ·) with
            | none => rfl
            | some x => exact modifier x found
        · simp [BlockGrammar.isUnit, declare, begin, create]

theorem statementDelimiter?_append (grammar : BlockGrammar) {leading : List String} {word : String}
    (plain : word ∉ BlockGrammar.unitWords)
    (later : leading ≠ [] ∨ word ∉ ["DECLARE", "BEGIN"]) :
    grammar.statementDelimiter? (leading ++ [word]) = grammar.statementDelimiter? leading := by
  cases grammar with
  | common => rfl
  | mysql => rfl
  | oracle => simp only [BlockGrammar.statementDelimiter?, isUnit_append plain later]

theorem opens_empty (grammar : BlockGrammar) (w : Word) (ctx : Context) (h : w.text = "") :
    grammar.opens w ctx = false := by
  cases grammar <;>
    simp [BlockGrammar.opens, BlockGrammar.opensCommon, BlockGrammar.opensControlFlow,
      BlockGrammar.opensUnit, h]

namespace Session

variable {s t u : Session} {draft e : Option Draft} {d : Draft}

theorem leading_afterWord (d : Draft) (text : String) : (d.afterWord text).leading ≠ [] := by
  simp only [Draft.afterWord]
  split
  · simp
  · next many =>
    intro none
    rw [none] at many
    exact many (by decide)

/-- The active delimiter is the one that the leading words of the draft ask for, if any. -/
def Classified (s : Session) (draft : Option Draft) : Prop :=
  ∀ d ∈ draft, ∀ x ∈ s.dialect.blocks.statementDelimiter? d.leading, s.context.delimiter = x

/-- The active delimiter begins where a word has to be read, and does not end the statement. -/
def Stuck (s : Session) (d : Draft) : Prop :=
  ∃ c rest, s.cursor.ahead = c :: rest ∧ s.gap? (some d) c = none ∧
    s.dialect.token s.context.startsWord c rest = .word ∧ s.word = []

/-- A session is stuck where the delimiter begins like a word. -/
theorem startsAt_of_stuck (stuck : s.Stuck d) : ∃ c rest, s.context.startsWord c = true ∧
    s.context.delimiter.startsAt (c :: rest) = true := by
  obtain ⟨c, rest, ahead, -, token, empty⟩ := stuck
  have begins : s.context.startsWord c = true := token_word token
  have letter : s.context.isWordChar c = true := by
    simp only [Context.startsWord, Context.isWordChar, Bool.or_eq_true] at begins ⊢
    rcases begins with letter | underscore
    · exact Or.inl (Or.inl letter)
    · exact Or.inr underscore
  refine ⟨c, rest, begins, ?_⟩
  rw [Session.word, ahead, Context.wordAhead, letter] at empty
  simpa using empty

theorem classified_none (s : Session) : s.Classified none := by
  intro d h
  cases h

theorem classified_of_grammar (grammar : s.dialect.blocks ≠ .oracle) : s.Classified draft := by
  intro x _ delimiter asked
  exact absurd (statementDelimiter?_eq_some asked).1 grammar

theorem classified_of_eq {d' : Draft} (h : s.Classified (some d)) (dialect : t.dialect = s.dialect)
    (delimiter : t.context.delimiter = s.context.delimiter) (leading : d'.leading = d.leading) :
    t.Classified (some d') := by
  intro x hx y hy
  cases hx
  rw [dialect, leading] at hy
  rw [delimiter]
  exact h d rfl y hy

theorem classified_begin (h : s.Classified draft) (begun : s.begin draft = .ok (u, d)) :
    u.Classified (some d) := by
  rcases begin_eq_ok_iff.mp begun with ⟨rfl, rfl⟩ | ⟨-, -, rfl, rfl⟩
  · exact h
  · intro x hx y hy
    cases hx
    cases hg : s.dialect.blocks <;>
      simp [Draft.begin, BlockGrammar.statementDelimiter?, BlockGrammar.isUnit, hg] at hy

theorem classify_empty (h : s.Classified (some d)) : s.classify d "" = s := by
  have same : (d.asks s.dialect.blocks "").getD s.context.delimiter = s.context.delimiter := by
    rw [Draft.asks, statementDelimiter?_append _ (by decide) (Or.inr (by decide))]
    cases asked : s.dialect.blocks.statementDelimiter? d.leading with
    | none => split <;> rfl
    | some x =>
      rw [← h d rfl x asked]
      split <;> rfl
  rw [classify_eq, same]
  rfl

/-- An empty word leaves everything but the draft as it is. -/
theorem takeWord_empty (h : s.Classified (some d)) :
    s.takeWord d "" = .more s (some (d.afterWord "")) := by
  have same : ∀ next, s.openBlock d "" next = s := by
    intro next
    simp [openBlock, opens_empty]
  simp [takeWord, same, classify_empty h]

theorem stuck_any (h : s.Stuck d) (d' : Draft) : s.Stuck d' := h

theorem pass_of_stuck (stuck : s.Stuck d) (h : s.Classified (some d)) :
    s.pass (some d) = .more s (some (d.afterWord "")) := by
  obtain ⟨c, rest, ahead, solid, token, empty⟩ := stuck
  apply pass_of_step
  have text : s.wordText = "" := by simp [wordText, empty, upper]
  have here : s.afterWord = s := by
    rw [afterWord, empty]
    rfl
  refine .word ahead solid rfl token ?_ ?_
  · intro may
    simp [mayDirect, text] at may
  · rw [here, text]
    exact takeWord_empty h

theorem step_classified (h : Step s draft t e) (hc : s.Classified draft) : t.Classified e := by
  have dialect := step_dialect h
  cases h with
  | gap => exact hc
  | delimiter => exact classified_none _
  | text _ _ begun => exact classified_of_eq (classified_begin hc begun) rfl rfl rfl
  | symbol _ _ begun =>
    rw [countParen_eq]
    exact classified_of_eq (classified_begin hc begun) rfl rfl rfl
  | directive => exact classified_none _
  | @word _ _ c rest u _ d _ _ begun _ _ taken =>
    have begins := classified_begin hc begun
    obtain ⟨rfl, blocks, lastClosed, warnings, rfl⟩ := takeWord_more taken
    intro x hx y hy
    cases hx
    obtain ⟨kind, rfl⟩ := begin_ok begun
    rw [dialect] at hy
    rw [classify_eq]
    simp only [Draft.afterWord] at hy
    change (d.asks s.dialect.blocks _).getD s.context.delimiter = y
    by_cases few : d.leading.length < Draft.leadingWords
    · rw [if_pos few] at hy
      rw [Draft.asks, if_pos few, hy]
      rfl
    · rw [if_neg few] at hy
      rw [Draft.asks, if_neg few]
      exact begins d rfl y hy

theorem skip_shortens {c : Char} {rest : List Char} {n : Nat} (ahead : s.cursor.ahead = c :: rest)
    (h : 0 < n) : (s.cursor.skip n).ahead.length < s.cursor.ahead.length := by
  rw [Cursor.skip_ahead, ahead, List.length_drop, List.length_cons]
  omega

theorem length?_pos {c : Char} {rest : List Char} {g : Gap} {n : Nat}
    (ahead : s.cursor.ahead = c :: rest) (found : s.gap? draft c = some g)
    (length : g.length? = some n) : 0 < n := by
  cases g with
  | blank =>
    cases length
    omega
  | delimiter => cases length
  | terminator m =>
    cases length
    obtain ⟨solid, -, -, rfl⟩ := terminator_of_gap? found
    rw [ahead]
    exact lineLength_pos solid rest
  | comment extent =>
    cases extent with
    | closed m =>
      cases length
      obtain ⟨solid, comment⟩ := comment_of_gap? found
      rw [ahead] at comment
      exact Dialect.comment?_pos solid comment
    | unclosed => cases length

theorem delimiter_pos {c : Char} {rest : List Char} {n : Nat}
    (ahead : s.cursor.ahead = c :: rest) (found : s.gap? draft c = some (.delimiter n)) :
    0 < n := by
  obtain ⟨solid, here⟩ := delimiter_of_gap? found
  obtain ⟨-, ⟨-, -, rfl⟩ | ⟨-, starts, rfl⟩⟩ := delimiterLength?_eq_some here
  · rw [ahead]
    exact lineLength_pos solid rest
  · simp only [Delimiter.startsAt, Bool.and_eq_true, Bool.not_eq_true',
      List.isEmpty_eq_false_iff] at starts
    exact List.length_pos_iff.mpr starts.1.2

theorem word_pos_of_mayDirect (may : s.mayDirect d = true) : 0 < s.word.length := by
  refine List.length_pos_iff.mpr ?_
  intro empty
  have text := (mayDirect_iff.mp may).2.1
  rw [wordText, empty] at text
  revert text
  decide

/-- A step takes a character, or leaves the session stuck. -/
theorem step_advances (h : Step s draft t e) (hc : s.Classified draft) :
    t.cursor.ahead.length < s.cursor.ahead.length ∨ ∃ d, e = some d ∧ t.Stuck d := by
  cases h with
  | gap ahead found length => exact Or.inl (skip_shortens ahead (length?_pos ahead found length))
  | delimiter ahead found => exact Or.inl (skip_shortens ahead (delimiter_pos ahead found))
  | text ahead _ begun token =>
    obtain ⟨kind, rfl⟩ := begin_ok begun
    exact Or.inl (skip_shortens ahead (Dialect.token_text_pos token))
  | symbol ahead _ begun =>
    obtain ⟨kind, rfl⟩ := begin_ok begun
    rw [countParen_eq]
    exact Or.inl (skip_shortens ahead Nat.one_pos)
  | @directive _ c rest u d delimiter ahead solid begun token may =>
    obtain ⟨kind, rfl⟩ := begin_ok begun
    refine Or.inl ?_
    simp only [direct, Cursor.skipLine, afterWord, skip_cursor, Cursor.skip_skip]
    exact skip_shortens ahead (Nat.add_pos_left (word_pos_of_mayDirect may) _)
  | @word _ _ c rest u _ d ahead solid begun token _ taken =>
    have begins := classified_begin hc begun
    obtain ⟨kind, rfl⟩ := begin_ok begun
    by_cases empty : word { s with context := { s.context with kind } } = []
    · have text : wordText { s with context := { s.context with kind } } = "" := by
        simp [wordText, empty, upper]
      have here : afterWord { s with context := { s.context with kind } } =
          { s with context := { s.context with kind } } := by
        rw [afterWord, empty]
        rfl
      rw [here, text, takeWord_empty begins] at taken
      cases taken
      refine Or.inr ⟨_, rfl, c, rest, ahead, ?_, token, empty⟩
      obtain ⟨nonblank, unended, -, uncommented⟩ := gap?_eq_none_iff.mp solid
      exact gap?_eq_none_iff.mpr ⟨nonblank, unended, by rintro ⟨⟩, uncommented⟩
    · obtain ⟨-, blocks, lastClosed, warnings, rfl⟩ := takeWord_more taken
      rw [classify_eq]
      exact Or.inl (skip_shortens ahead (List.length_pos_iff.mpr empty))

end Session

end SqlBoundary
