import SqlBoundary.Proofs.Framed
import SqlBoundary.Proofs.Visits

/-!
# Words that are cut short

An inline delimiter cuts a word wherever it begins inside of it. If it ends behind the statement, then
the word is whole in the text of the statement alone, but the script is read on in the middle of it.

That makes no difference if the reading in the script and the reading behind the whole word meet
again before the next word, with the same blocks and parentheses open: `Rejoins`. In this case the
script is read as if the word were whole, and this is `Mended`.
-/

namespace SqlBoundary

open Text

/-- The draft without a last word. -/
def Draft.wordless (d : Draft) : Draft := { d with previous := none }

namespace Session

variable {s t u v : Session} {draft e f : Option Draft} {d x y z : Draft}

/-- Reading goes on from one to the other without a word. -/
def WithoutWord (s : Session) (d : Draft) (t : Session) (e : Draft) : Prop :=
  e.previous = none ∧ Passes s (some d.wordless) t (some e)

/-- The next word that is read is this one. -/
def NextWord (s : Session) (d : Draft) (text : String) : Prop :=
  ∃ t e u f, s.WithoutWord d t e ∧ Step t (some e) u (some f) ∧ f.previous = some text

/-- The session behind the word ahead, if that is this word. -/
def pastWord (s : Session) (draft : Option Draft) (word : List Char) : Session :=
  skip { s with context := s.scope draft } word.length

@[simp] theorem pastWord_ahead (s : Session) (draft : Option Draft) (word : List Char) :
    (s.pastWord draft word).cursor.ahead = s.cursor.ahead.drop word.length :=
  Cursor.skip_ahead _ _

/-- The draft after that word. -/
def draftPast (s : Session) (draft : Option Draft) (word : List Char) : Draft :=
  (draft.getD (.begin s.cursor)).afterWord (String.ofList (upper word))

/-- The reading from here and the reading behind this word meet before the next word, with the same
blocks and parentheses open. The last word then is no `END` that a `CASE` follows. -/
def Rejoins (s : Session) (draft : Option Draft) (word : List Char) : Prop :=
  ∃ t e u f, Passes s draft t (some e) ∧
    (s.pastWord draft word).WithoutWord (s.draftPast draft word) u f ∧
    t.cursor = u.cursor ∧ t.context.parens = u.context.parens ∧
    t.context.blocks = u.context.blocks ∧
    (e.previous = some "END" → ¬ t.NextWord e "CASE")

/-- The word that is read here is only the beginning of `word`, which is ahead in `p` alone. -/
structure CutShort (s : Session) (draft : Option Draft) (p word : List Char) : Prop where
  sees : ∃ cut transaction more, s.sight draft = .word cut transaction ∧ word = cut ++ more ∧
    more ≠ []
  alone : (s.scope draft).wordAhead p = word

/-- The script up to `after` is read, but some words of it that are cut short are taken whole. -/
inductive Mended (after : List Char) : Session → Option Draft → Session → Option Draft → Prop
  | refl (s : Session) (draft : Option Draft) : Mended after s draft s draft
  | step {s t u : Session} {draft e f : Option Draft} (first : Step s draft t e)
      (shorter : t.cursor.ahead.length < s.cursor.ahead.length)
      (whole : ∀ p word, s.cursor.ahead = p ++ after → ¬ s.CutShort draft p word)
      (later : Mended after t e u f) : Mended after s draft u f
  | word {s u : Session} {draft f : Option Draft} {p word : List Char}
      (ahead : s.cursor.ahead = p ++ after) (cut : s.CutShort draft p word)
      (later : Mended after (s.pastWord draft word) (some (s.draftPast draft word).wordless) u f) :
      Mended after s draft u f
  | alike {s t u : Session} {d e : Draft} {f : Option Draft} (alike : Alike t (some e) s (some d))
      (place : t.cursor = s.cursor) (later : Mended after t (some e) u f) :
      Mended after s (some d) u f

theorem step_some (std : s.dialect.Standard) (h : Step s (some d) t e) : ∃ y, e = some y := by
  cases e with
  | some y => exact ⟨y, rfl⟩
  | none =>
    have directive := directive_of_step h
    rw [std.directive] at directive
    cases directive

/-- A word that is seen is taken as it stands. -/
theorem pass_of_seen (std : s.dialect.Standard) {spelled : List Char} {transaction : Bool}
    (seen : s.sight draft = .word spelled transaction) :
    s.pass draft = (s.pastWord draft spelled).takeWord (draft.getD (.begin s.cursor))
      (String.ofList (upper spelled)) := by
  let u : Session := { s with context := s.scope draft }
  have same : u.word = spelled := by
    have word := seesWord_of_sight seen
    simp only [Context.seesWord, Sight.word.injEq] at word
    exact word.1
  have plain : u.mayDirect (draft.getD (.begin s.cursor)) = false := by
    simp [mayDirect, u, std.directive]
  have text : u.wordText = String.ofList (upper spelled) := by rw [wordText, same]
  rw [pass_of_sight std, seen]
  change u.readWord (draft.getD (.begin s.cursor)) = _
  rw [readWord_eq, plain, text, afterWord, same]
  rfl

/-- A step that sees a word takes it into the draft. -/
theorem step_of_word (std : s.dialect.Standard) {spelled : List Char} {transaction : Bool}
    (seen : s.sight draft = .word spelled transaction) (h : Step s draft t (some y)) :
    y = s.draftPast draft spelled := by
  have pass := pass_of_step h
  rw [pass_of_seen std seen] at pass
  exact Option.some.inj (takeWord_more pass).1

/-- A word other than `CASE` is taken in the same way whatever the last word was. -/
theorem takeWord_wordless (std : s.dialect.Standard) {text : String} (other : text ≠ "CASE") :
    s.takeWord d.wordless text = s.takeWord d text := by
  have opens : s.openBlock d.wordless text (s.context.tokenAhead? s.cursor.ahead) =
      s.openBlock d text (s.context.tokenAhead? s.cursor.ahead) := by
    rw [openBlock_eq, openBlock_eq, std.blocks]
    simp only [BlockGrammar.opens, BlockGrammar.opensCommon, asWord]
    split
    · rfl
    · exact absurd rfl other
    · rfl
  rw [takeWord, takeWord, opens]
  rfl

theorem takeWord_case (s : Session) (d : Draft) : ∃ t, s.takeWord d "CASE" =
    .more t (some (d.afterWord "CASE")) := ⟨_, rfl⟩

/-- A step that is not over a word does not look at the last one, and a word other than `CASE` is
read without it. -/
theorem step_wordless (std : s.dialect.Standard) (h : Step s (some d) t (some y)) :
    y.previous = d.previous ∧ Step s (some d.wordless) t (some y.wordless) ∨
      ∃ text, y.previous = some text ∧ (text ≠ "CASE" → Step s (some d.wordless) t (some y)) ∧
        ∃ v z, Step s (some d.wordless) v (some z) ∧ z.previous = some text := by
  generalize held : some y = e at h
  cases h with
  | gap ahead found length =>
    cases held
    exact Or.inl ⟨rfl, .gap ahead found length⟩
  | text ahead solid begun token =>
    cases begun
    cases held
    have step : Step s (some d.wordless) _ (some d.wordless.afterText) :=
      .text ahead solid rfl token
    exact Or.inl ⟨rfl, step⟩
  | @symbol _ c rest _ _ ahead solid begun token =>
    cases begun
    cases held
    have step : Step s (some d.wordless) _ (some (d.wordless.afterSymbol c rest)) :=
      .symbol ahead solid rfl token
    exact Or.inl ⟨rfl, step⟩
  | directive => cases held
  | word ahead solid begun token plain taken =>
    cases begun
    subst held
    obtain ⟨same, -⟩ := takeWord_more taken
    cases same
    have reads : ∀ v e, s.afterWord.takeWord d.wordless s.wordText = .more v e →
        Step s (some d.wordless) v e := fun v e => .word ahead solid rfl token plain
    refine Or.inr ⟨s.wordText, rfl, ?_, ?_⟩
    · intro other
      exact reads _ _ ((takeWord_wordless (s := s.afterWord) std other).trans taken)
    · by_cases case : s.wordText = "CASE"
      · obtain ⟨v, took⟩ := takeWord_case s.afterWord d.wordless
        rw [← case] at took
        exact ⟨v, _, reads _ _ took, rfl⟩
      · exact ⟨_, _, reads _ _ ((takeWord_wordless (s := s.afterWord) std case).trans taken), rfl⟩

/-- Behind a word there is always a last one. -/
theorem previous_of_step (std : s.dialect.Standard) (h : Step s (some d) t (some y))
    (wordless : y.previous = none) : d.previous = none := by
  rcases step_wordless std h with ⟨same, -⟩ | ⟨text, word, -⟩
  · rw [← same, wordless]
  · rw [wordless] at word
    cases word

theorem leading_of_step (h : Step s (some d) t (some y)) (words : d.leading.isEmpty = false) :
    y.leading.isEmpty = false := by
  generalize held : some y = e at h
  cases h with
  | gap =>
    cases held
    exact words
  | text _ _ begun =>
    cases begun
    cases held
    exact words
  | symbol _ _ begun =>
    cases begun
    cases held
    exact words
  | directive => cases held
  | word _ _ begun _ _ taken =>
    cases begun
    subst held
    obtain ⟨same, -⟩ := takeWord_more taken
    cases same
    exact d.isEmpty_afterWord _

variable {dialect : Dialect} {delimiter : Delimiter} {after p word : List Char}

/-- What stays the same while a statement is read. -/
structure Ongoing (dialect : Dialect) (delimiter : Delimiter) (s : Session)
    (draft : Option Draft) : Prop where
  steady : Steady dialect delimiter s draft
  kind : (s.scope draft).kind = dialect.kind

@[simp] theorem pastWord_blocks (s : Session) (draft : Option Draft) (word : List Char) :
    (s.pastWord draft word).context.blocks = s.context.blocks := by
  rw [pastWord, skip_context, scope]
  split <;> rfl

theorem scope_delimiter (s : Session) (draft : Option Draft) :
    (s.scope draft).delimiter = s.context.delimiter := by
  rw [scope]
  split <;> rfl

/-- A statement has the kind of its first token. -/
theorem step_kind (std : s.dialect.Standard) (h : Step s draft t (some y)) :
    t.context.kind = (s.scope draft).kind := by
  generalize held : some y = e at h
  cases h with
  | gap =>
    subst held
    rfl
  | delimiter => cases held
  | text _ _ begun =>
    rw [begin_standard std] at begun
    cases begun
    rfl
  | symbol _ _ begun =>
    rw [begin_standard std] at begun
    cases begun
    rw [countParen_eq]
    rfl
  | directive => cases held
  | word _ _ begun _ _ taken =>
    rw [begin_standard std] at begun
    cases begun
    obtain ⟨-, blocks, lastClosed, warnings, rfl⟩ := takeWord_more taken
    rw [classify_eq]
    rfl

namespace Ongoing

theorem standard (h : Ongoing dialect delimiter s draft) (std : dialect.Standard) :
    s.dialect.Standard := h.steady.dialect ▸ std

theorem scope_delimiter (h : Ongoing dialect delimiter s draft) :
    (s.scope draft).delimiter = delimiter :=
  (Session.scope_delimiter s draft).trans h.steady.delimiter

theorem step (std : dialect.Standard) (h : Ongoing dialect delimiter s draft)
    (first : Step s draft t (some y)) : Ongoing dialect delimiter t (some y) :=
  ⟨step_steady std first h.steady, (step_kind (h.standard std) first).trans h.kind⟩

/-- Passes within a statement go on with its draft. -/
theorem passes (std : dialect.Standard) (h : Ongoing dialect delimiter s (some d))
    (passes : Passes s (some d) t e) : ∃ y, e = some y ∧ Ongoing dialect delimiter t (some y) := by
  generalize held : some d = draft at passes
  induction passes generalizing d with
  | refl =>
    subst held
    exact ⟨d, rfl, h⟩
  | step first _ ih =>
    subst held
    obtain ⟨y, rfl⟩ := step_some (h.standard std) first
    exact ih (h.step std first) rfl

/-- An alike session goes on with the same statement. -/
theorem of_alike (h : Ongoing dialect delimiter s (some d)) (std : dialect.Standard)
    (alike : Alike t (some x) s (some d)) : Ongoing dialect delimiter t (some x) where
  steady :=
    ⟨alike.dialect.symm.trans h.steady.dialect, alike.exhausted.symm.trans h.steady.live,
      alike.delimiter.symm.trans h.steady.delimiter, alike.script.symm.trans h.steady.script,
      classified_of_grammar fun oracle => by
        rw [← alike.dialect, h.steady.dialect, std.blocks] at oracle
        cases oracle⟩
  kind := (alike.kind rfl).symm.trans h.kind

/-- A pass that reads on from the beginning of a statement stays in it. -/
theorem passes_some (std : dialect.Standard) (h : Ongoing dialect delimiter s draft)
    (first : Step s draft t (some y)) (passes : Passes s draft u (some x)) :
    Ongoing dialect delimiter u (some x) := by
  cases passes with
  | refl => exact h
  | step first' rest =>
    cases (pass_of_step first).symm.trans (pass_of_step first')
    obtain ⟨z, same, later⟩ := (h.step std first).passes std rest
    cases same
    exact later

/-- In a statement every step goes on with its draft. -/
theorem reads (h : Ongoing dialect delimiter s (some d)) (std : dialect.Standard) :
    ¬ Step s (some d) t none := by
  intro given
  obtain ⟨z, held⟩ := step_some (h.standard std) given
  cases held

/-- The delimiter does not begin like a word, so that every word takes a character. -/
theorem advances (h : Ongoing dialect delimiter s draft) (std : dialect.Standard)
    (plain : delimiter.Wordless dialect) (first : Step s draft t (some y)) :
    t.cursor.ahead.length < s.cursor.ahead.length := by
  rcases step_advances first h.steady.classified with shorter | ⟨z, held, stuck⟩
  · exact shorter
  · cases held
    have later := h.step std first
    exact absurd stuck (not_stuck_of_wordless later.kind fun _ => later.steady.delimiter ▸ plain)

/-- Behind a word of the statement it is still the same statement. -/
theorem pastWord (h : Ongoing dialect delimiter s draft) (std : dialect.Standard)
    (word : List Char) (d : Draft) :
    Ongoing dialect delimiter (s.pastWord draft word) (some d) where
  steady :=
    ⟨h.steady.dialect, h.steady.live, h.scope_delimiter, h.steady.script,
      classified_of_grammar fun oracle => nomatch (h.standard std).blocks.symm.trans oracle⟩
  kind := h.kind

end Ongoing

/-- A word is only cut short by a delimiter that begins with one of its digits. -/
theorem CutShort.digit (cut : s.CutShort draft p word) (ongoing : Ongoing dialect delimiter s draft)
    (plain : delimiter.Wordless dialect) (ahead : s.cursor.ahead = p ++ after) :
    ∃ x ∈ word, x.isDigit = true ∧ x ∈ delimiter.text.toList.head? := by
  obtain ⟨read, transaction, more, seen, rfl, longer⟩ := cut.sees
  have sees := seesWord_of_sight seen
  rw [ahead, Context.seesWord, Sight.word.injEq] at sees
  obtain ⟨x, others, rfl, letter, begins⟩ := Context.wordAhead_cut sees.1 cut.alone longer
  rw [ongoing.scope_delimiter] at begins
  exact ⟨x, by simp, plain.digit ongoing.kind begins letter, begins⟩

/-- From here on to the first point all that lies between is read on the way to the other. -/
theorem passes_onward {statement : Statement} (h : Passes s draft t e) (all : Passes s draft u f)
    (found : u.pass f = .found v statement) : Passes t e u f := by
  induction h with
  | refl => exact all
  | step first _ ih =>
    cases all with
    | refl =>
      rw [pass_of_step first] at found
      cases found
    | step first' rest =>
      have same := (pass_of_step first).symm.trans (pass_of_step first')
      cases same
      exact ih rest

/-- The draft is this one, or lacks only the last word, and then no `CASE` is the next. -/
def Varied (s : Session) (draft e : Option Draft) : Prop :=
  e = draft ∨ ∃ d, draft = some d ∧ e = some d.wordless ∧ ¬ s.NextWord d "CASE"

theorem Varied.step (std : s.dialect.Standard) (h : Varied s draft e)
    (first : Step s draft t (some y)) : ∃ z, Step s e t (some z) ∧ Varied t (some y) (some z) := by
  obtain rfl | ⟨d, rfl, rfl, other⟩ := h
  · exact ⟨y, first, Or.inl rfl⟩
  · rcases step_wordless std first with ⟨-, idle⟩ | ⟨text, word, reads, v, z, read, same⟩
    · refine ⟨y.wordless, idle, Or.inr ⟨y, rfl, rfl, ?_⟩⟩
      rintro ⟨u, f, w, g, ⟨none, passes⟩, step, next⟩
      exact other ⟨u, f, w, g, ⟨none, .step idle passes⟩, step, next⟩
    · refine ⟨y, reads ?_, Or.inl rfl⟩
      rintro rfl
      exact other ⟨s, d.wordless, v, z, ⟨rfl, .refl s _⟩, read, same⟩

/-- What is seen does not depend on the last word. -/
theorem Varied.cutShort (h : Varied s draft e) : s.CutShort e p word ↔ s.CutShort draft p word := by
  obtain rfl | ⟨d, rfl, rfl, -⟩ := h
  · exact Iff.rfl
  · exact ⟨fun cut => ⟨cut.sees, cut.alone⟩, fun cut => ⟨cut.sees, cut.alone⟩⟩

theorem Varied.pastWord (h : Varied s draft e) (word : List Char) :
    s.pastWord e word = s.pastWord draft word ∧
      (s.draftPast e word).wordless = (s.draftPast draft word).wordless := by
  obtain rfl | ⟨d, rfl, rfl, -⟩ := h
  · exact ⟨rfl, rfl⟩
  · exact ⟨rfl, rfl⟩

/-- Behind a word that is taken whole reading goes on without one. -/
theorem mended_of_withoutWord (std : dialect.Standard) (plain : delimiter.Wordless dialect)
    (ongoing : Ongoing dialect delimiter s (some d)) (h : Passes s (some d) t (some x))
    (wordless : x.previous = none) (later : Mended after t (some x) u f) :
    Mended after s (some d) u f ∧ d.previous = none := by
  generalize held : some d = draft, held' : some x = e at h
  induction h generalizing d with
  | refl =>
    subst held
    cases held'
    exact ⟨later, wordless⟩
  | @step s v t draft g e first rest ih =>
    subst held
    obtain ⟨y, rfl⟩ := step_some (ongoing.standard std) first
    obtain ⟨later, none⟩ := ih (ongoing.step std first) later rfl held'
    refine ⟨.step first (ongoing.advances std plain first) ?_ later,
      previous_of_step (ongoing.standard std) first none⟩
    intro p word _ cut
    obtain ⟨read, transaction, more, seen, -⟩ := cut.sees
    rw [step_of_word (ongoing.standard std) seen first] at none
    cases none

theorem leading_of_passes (std : dialect.Standard) (ongoing : Ongoing dialect delimiter s (some d))
    (h : Passes s (some d) t (some x)) (words : d.leading.isEmpty = false) :
    x.leading.isEmpty = false := by
  generalize held : some d = draft, held' : some x = e at h
  induction h generalizing d with
  | refl =>
    subst held
    cases held'
    exact words
  | step first _ ih =>
    subst held
    obtain ⟨y, rfl⟩ := step_some (ongoing.standard std) first
    exact ih (ongoing.step std first) (leading_of_step first words) rfl held'

/-- Where two readings of a statement meet, they are alike. -/
theorem Ongoing.alike (h : Ongoing dialect delimiter s (some d))
    (h' : Ongoing dialect delimiter t (some z)) (parens : t.context.parens = s.context.parens)
    (blocks : t.context.blocks = s.context.blocks) (words : x.leading.isEmpty = false)
    (words' : y.leading.isEmpty = false)
    (ended : (y.previous == some "END") = (x.previous == some "END")) :
    Alike s (some x) t (some y) where
  dialect := h'.steady.dialect.trans h.steady.dialect.symm
  delimiter := h'.steady.delimiter.trans h.steady.delimiter.symm
  script := h'.steady.script.trans h.steady.script.symm
  parens := parens
  blocks := blocks
  exhausted := h'.steady.live.trans h.steady.live.symm
  kind := fun _ => h'.kind.trans h.kind.symm
  drafts := .some ⟨words'.trans words.symm, ended⟩

theorem CutShort.ne_nil (cut : s.CutShort draft p word) : word ≠ [] := by
  obtain ⟨read, transaction, more, -, rfl, longer⟩ := cut.sees
  exact List.append_ne_nil_of_right_ne_nil read longer

/-- Behind the word less is ahead. -/
theorem CutShort.shortens (cut : s.CutShort draft p word) (ahead : s.cursor.ahead = p ++ after) :
    (s.pastWord draft word).cursor.ahead.length < s.cursor.ahead.length := by
  have some := List.length_pos_iff.mpr cut.ne_nil
  have within := List.IsPrefix.length_le (Context.wordAhead_prefix (s.scope draft) p)
  rw [cut.alone] at within
  rw [pastWord, skip_cursor, Cursor.skip_ahead, List.length_drop, ahead, List.length_append]
  omega

/-- The last word is forgotten if it is an `END`. -/
theorem exists_varied (h : d.previous = some "END" → ¬ s.NextWord d "CASE") :
    ∃ x, Varied s (some d) (some x) ∧ x.leading = d.leading ∧ (x.previous == some "END") = false := by
  by_cases ended : d.previous = some "END"
  · exact ⟨d.wordless, Or.inr ⟨d, rfl, rfl, h ended⟩, rfl, rfl⟩
  · exact ⟨d, Or.inl rfl, rfl, beq_eq_false_iff_ne.mpr ended⟩

/-- Where the two readings meet they are alike, but for an `END` that is the last word of one. -/
theorem Rejoins.meets (rejoins : s.Rejoins draft word) (std : dialect.Standard)
    (ongoing : Ongoing dialect delimiter s draft) (first : Step s draft t (some y))
    (ahead : s.cursor.ahead = p ++ after) (cut : s.CutShort draft p word) :
    ∃ v d e u f, Passes s draft v (some d) ∧ v.cursor.ahead.length < s.cursor.ahead.length ∧
      (s.pastWord draft word).WithoutWord (s.draftPast draft word) u f ∧ v.cursor = u.cursor ∧
      Varied v (some d) (some e) ∧ Alike v (some e) u (some f) := by
  obtain ⟨v, d, u, f, passes, idle, place, parens, blocks, last⟩ := rejoins
  obtain ⟨piece, split, -⟩ := passes_cut idle.2
  have less : v.cursor.ahead.length < s.cursor.ahead.length := by
    have before := cut.shortens ahead
    rw [split, List.length_append, ← place] at before
    omega
  obtain ⟨e, varied, leading, ended⟩ := exists_varied last
  refine ⟨v, d, e, u, f, passes, less, idle, place, varied, ?_⟩
  have words : d.leading.isEmpty = false := by
    obtain ⟨read, transaction, more, seen, -⟩ := cut.sees
    cases passes with
    | refl => exact absurd less (Nat.lt_irrefl _)
    | step first' rest =>
      cases (pass_of_step first).symm.trans (pass_of_step first')
      rw [step_of_word (ongoing.standard std) seen first] at rest first
      exact leading_of_passes std (ongoing.step std first) rest (Draft.isEmpty_afterWord _ _)
  have past := ongoing.pastWord std word (s.draftPast draft word).wordless
  have words' := leading_of_passes std past idle.2 (Draft.isEmpty_afterWord _ _)
  obtain ⟨_, -, later⟩ := past.passes std idle.2
  have ended' : (f.previous == some "END") = false := by
    rw [idle.1]
    rfl
  exact (ongoing.passes_some std first passes).alike later parens.symm blocks.symm (leading ▸ words)
    words' (ended'.trans ended.symm)

/-- The reading of a script to the end of a statement, where those words that are cut short are taken
whole. -/
theorem mended_of_passes {statement : Statement} (std : dialect.Standard)
    (plain : delimiter.Wordless dialect) (h : Passes s draft u f)
    (found : u.pass f = .found v statement) (ongoing : Ongoing dialect delimiter s draft)
    (into : ∀ r, ¬ Step s draft r none) (varied : Varied s draft e)
    (rejoins : ∀ t g p word, Passes s draft t g → t.cursor.ahead = p ++ after →
      t.CutShort g p word → t.Rejoins g word) :
    ∃ y, Mended after s e u (some y) := by
  generalize size : s.cursor.ahead.length = n
  induction n using Nat.strong_induction_on generalizing s draft e with
  | _ n ih =>
    cases h with
    | refl =>
      obtain ⟨y, rfl, -⟩ := pass_found found
      obtain rfl | ⟨d, -, rfl, -⟩ := varied
      · exact ⟨y, .refl _ _⟩
      · exact ⟨d.wordless, .refl _ _⟩
    | @step _ t _ _ g _ first rest =>
      cases g with
      | none => exact absurd first (into t)
      | some y =>
        have shorter := ongoing.advances std plain first
        by_cases cut : ∃ p word, s.cursor.ahead = p ++ after ∧ s.CutShort draft p word
        · obtain ⟨p, word, ahead, cut⟩ := cut
          obtain ⟨w, x, x', r, z, passes, less, idle, place, varied', alike⟩ :=
            (rejoins s draft p word (.refl s draft) ahead cut).meets std ongoing first ahead cut
          have later := ongoing.passes_some std first passes
          have again : ∀ r, ¬ Step w (some x) r none := fun r => later.reads std
          obtain ⟨z', rest'⟩ := ih _ (size ▸ less) (passes_onward passes (.step first rest) found)
            later again varied' (fun t g p word more => rejoins t g p word (passes_trans passes more)) rfl
          obtain ⟨mended, -⟩ := mended_of_withoutWord std plain (ongoing.pastWord std word _) idle.2
            idle.1 (.alike alike place rest')
          obtain ⟨session, wordless⟩ := varied.pastWord (s := s) word
          rw [← session, ← wordless] at mended
          exact ⟨z', .word ahead (varied.cutShort.mpr cut) mended⟩
        · have later := ongoing.step std first
          have again : ∀ r, ¬ Step t (some y) r none := fun r => later.reads std
          obtain ⟨y', first', varied'⟩ := varied.step (ongoing.standard std) first
          obtain ⟨z, rest'⟩ := ih _ (size ▸ shorter) rest later again varied'
            (fun t g p word passes => rejoins t g p word (.step first passes)) rfl
          refine ⟨z, .step first' shorter ?_ rest'⟩
          intro p word ahead short
          exact cut ⟨p, word, ahead, varied.cutShort.mp short⟩

/-- What lies between is a piece of the script. -/
theorem mended_cut (h : Mended after s draft u f) :
    ∃ piece, s.cursor.ahead = piece ++ u.cursor.ahead := by
  induction h with
  | refl => exact ⟨[], rfl⟩
  | step first _ _ _ ih =>
    obtain ⟨piece, split, -⟩ := step_cut first
    obtain ⟨more, rests⟩ := ih
    exact ⟨piece ++ more, by rw [split, rests, List.append_assoc]⟩
  | @word s _ draft _ _ word _ _ _ ih =>
    obtain ⟨more, rests⟩ := ih
    refine ⟨s.cursor.ahead.take word.length ++ more, ?_⟩
    rw [List.append_assoc, ← rests, pastWord_ahead, List.take_append_drop]
  | alike _ place _ ih =>
    rw [← place]
    exact ih

/-- After the text only blanks are passed. -/
theorem mended_beyond {s' : Session} {draft' : Option Draft} {blanks : List Char}
    (h : Mended after s draft u f) (alike : Alike s draft s' draft')
    (ahead : s.cursor.ahead = blanks ++ u.cursor.ahead) (blank : ∀ c ∈ blanks, isBlank c = true) :
    Alike u f s' draft' := by
  induction h generalizing blanks with
  | refl => exact alike
  | @step s t u draft e f first shorter whole later ih =>
    cases blanks with
    | nil =>
      obtain ⟨piece, split⟩ := mended_cut later
      rw [ahead, split, List.nil_append, List.length_append] at shorter
      omega
    | cons c blanks =>
      have here : s.gap? draft c = some .blank := by
        simp only [gap?, blank c List.mem_cons_self, if_true]
      have pass := pass_of_gap ahead here
      rw [pass_of_step first] at pass
      cases pass
      refine ih (alike.skip 1 0) ?_ (fun x mem => blank x (List.mem_cons_of_mem c mem))
      rw [skip_cursor, Cursor.skip_ahead, ahead]
      rfl
  | @word s u draft f p word split cut later ih =>
    cases blanks with
    | nil =>
      have shorter := cut.shortens split
      obtain ⟨piece, split⟩ := mended_cut later
      rw [ahead, split, List.nil_append, List.length_append] at shorter
      omega
    | cons c blanks =>
      obtain ⟨read, transaction, more, seen, -⟩ := cut.sees
      have here : s.gap? draft c = some .blank := by
        simp only [gap?, blank c List.mem_cons_self, if_true]
      simp only [sight, ahead, List.cons_append, here] at seen
      cases seen
  | alike other place later ih =>
    exact ih (other.trans alike) (place ▸ ahead) blank

end Session

end SqlBoundary
