import SqlBoundary.Proofs.Visits

/-!
# Sealed texts

A quoted text in which every closing mark is doubled, or a block comment, is passed as one
token whatever stands in it. `splitFrom_sealed` says that its contents have no influence at all:
with others in their place, a script is split at the same places and with the same faults.

Where the token is met, everything before it has been read without a look beyond its first
character; after it, the two readings are alike and go on in parallel.
-/

namespace SqlBoundary

open Text Lexeme

/-- What makes a text sealed. -/
inductive Sealed
  /-- A string literal or a quoted identifier, with its two marks. -/
  | quoted (opens closes : Char)
  | blockComment

/-- The value as it is written between marks: every closing mark doubled. -/
def doubled (closes : Char) (value : List Char) : List Char :=
  value.flatMap fun c => if c == closes then [c, c] else [c]

namespace Sealed

def spell : Sealed → List Char → List Char
  | .quoted opens closes, value => opens :: (doubled closes value ++ [closes])
  | .blockComment, value => ['/', '*'] ++ value ++ ['*', '/']

/-- Whether the dialect has texts with these marks, in which no backslash escapes. -/
def ReadBy (dialect : Dialect) : Sealed → Prop
  | .quoted opens closes =>
    dialect.backslashEscapes = false ∧ opens ∈ dialect.stringQuotes ∧ closes = opens ∨
      (opens, closes) ∈ dialect.identifierQuotes
  | .blockComment => True

/-- A comment ends where its closing marks first occur. -/
def Holds : Sealed → List Char → Prop
  | .quoted _ _, _ => True
  | .blockComment, value => ¬ ['*', '/'] <:+: value

/-- A closing mark after the text would be one of a doubled pair. -/
def Apart : Sealed → List Char → Prop
  | .quoted _ closes, after => after.head? ≠ some closes
  | .blockComment, _ => True

end Sealed

/-- The delimiter has none of the marks that open a sealed text. -/
def Delimiter.Unmarked (d : Delimiter) : Prop := ∀ c ∈ d.text.toList, isMark c = false

instance (d : Delimiter) : Decidable d.Unmarked :=
  inferInstanceAs (Decidable (∀ c ∈ d.text.toList, isMark c = false))

theorem quotedEnd?_doubled {closes : Char} {after : List Char}
    (apart : after.head? ≠ some closes) (n : Nat) (value : List Char) :
    quotedEnd? closes false n (doubled closes value ++ closes :: after) =
      some (n + (doubled closes value).length + 1) := by
  induction value generalizing n with
  | nil =>
    cases after with
    | nil => simp [doubled, quotedEnd?]
    | cons x after =>
      have other : x ≠ closes := by simpa using apart
      simp [doubled, quotedEnd?, other]
  | cons c value ih =>
    by_cases mark : c = closes
    · have split : doubled closes (c :: value) = closes :: closes :: doubled closes value := by
        simp [doubled, mark]
      rw [split]
      simp [quotedEnd?, ih]
      omega
    · have split : doubled closes (c :: value) = c :: doubled closes value := by
        simp [doubled, mark]
      rw [split, List.cons_append]
      unfold quotedEnd?
      simp [mark, ih]
      omega

theorem commentEnd?_sealed {value : List Char} (holds : ¬ ['*', '/'] <:+: value)
    (after : List Char) :
    commentEnd? (value ++ ['*', '/'] ++ after) = some (value.length + 2) := by
  refine Option.map_eq_some_iff.mpr ⟨value.length, position?_eq_some_iff.mpr ⟨?_, ?_, ?_⟩, rfl⟩
  · rw [List.append_assoc, List.drop_left]
    exact List.prefix_append _ _
  · simp only [List.length_append]
    omega
  · intro m before reaches
    rw [List.append_assoc, List.drop_append_of_le_length (by omega)] at reaches
    have long : 1 ≤ (value.drop m).length := by
      rw [List.length_drop]
      omega
    obtain ⟨x, rest, tail⟩ := List.exists_cons_of_length_pos long
    rw [tail, List.cons_append, List.cons_prefix_cons] at reaches
    obtain ⟨rfl, next⟩ := reaches
    cases rest with
    | nil => simp at next
    | cons y rest =>
      rw [List.cons_append, List.cons_prefix_cons] at next
      obtain ⟨rfl, -⟩ := next
      refine holds ⟨value.take m, rest, ?_⟩
      rw [List.append_assoc]
      conv => rhs; rw [← List.take_append_drop m value, tail]
      rfl

namespace Sealed

variable {v : Vendor} {form : Sealed} {value after : List Char}

/-- The marks of the quoted texts of these dialects. -/
theorem marks_of_readBy {opens closes : Char}
    (vendor : v = .generic ∨ v = .postgres ∨ v = .sqlserver)
    (reads : (quoted opens closes).ReadBy v.dialect) :
    isMark opens = true ∧ opens ≠ '/' ∧ isBlank closes = false ∧
      ∃ construct, ∀ rest, v.dialect.quote? opens rest = some ⟨1, closes, false, construct⟩ := by
  have marks : opens = '\'' ∧ closes = '\'' ∨ opens = '"' ∧ closes = '"' ∨
      v = .sqlserver ∧ opens = '[' ∧ closes = ']' := by
    rcases vendor with rfl | rfl | rfl <;>
      simp [ReadBy, Vendor.dialect, Dialect.generic, Dialect.postgres, Dialect.sqlserver,
        Dialect.plain] at reads ⊢ <;> grind
  rcases marks with ⟨rfl, rfl⟩ | ⟨rfl, rfl⟩ | ⟨rfl, rfl, rfl⟩
  · refine ⟨by decide, by decide, by decide, .stringLiteral, ?_⟩
    rcases vendor with rfl | rfl | rfl <;> exact fun _ => rfl
  · refine ⟨by decide, by decide, by decide, .quotedIdentifier, ?_⟩
    rcases vendor with rfl | rfl | rfl <;> exact fun _ => rfl
  · exact ⟨by decide, by decide, by decide, .quotedIdentifier, fun _ => rfl⟩

/-- The first character of a sealed text is a mark, the last one is not blank. -/
theorem spell_marks (vendor : v = .generic ∨ v = .postgres ∨ v = .sqlserver)
    (reads : form.ReadBy v.dialect) : ∃ m, isMark m = true ∧
      ∀ value, ∃ rest, form.spell value = m :: rest ∧ EndsSolid (form.spell value) := by
  cases form with
  | quoted opens closes =>
    obtain ⟨mark, -, solid, -⟩ := marks_of_readBy vendor reads
    refine ⟨opens, mark, fun value => ⟨_, rfl, opens :: doubled closes value, closes, rfl, solid⟩⟩
  | blockComment =>
    refine ⟨'/', by decide, fun value => ⟨_, rfl, ['/', '*'] ++ value ++ ['*'], '/', ?_, by decide⟩⟩
    simp [spell]

end Sealed

section Mark

variable {d : Delimiter} {m : Char} {p a b : List Char}

theorem prefix_of_unmarked {pattern : List Char} (unmarked : m ∉ pattern) :
    pattern <+: p ++ m :: a ↔ pattern <+: p := by
  constructor
  · intro begins
    rcases List.prefix_or_prefix_of_prefix begins (List.prefix_append p (m :: a)) with
      inside | ⟨rest, rfl⟩
    · exact inside
    · rw [List.prefix_append_right_inj] at begins
      cases rest with
      | nil => exact ⟨[], by rw [List.append_nil, List.append_nil]⟩
      | cons x rest =>
        rw [List.cons_prefix_cons] at begins
        exact absurd (by simp [begins.1]) unmarked
  · intro inside
    exact inside.trans (List.prefix_append p _)

namespace Delimiter.Unmarked

theorem not_mem (h : d.Unmarked) (mark : isMark m = true) : m ∉ d.text.toList := by
  intro mem
  have plain := h m mem
  rw [mark] at plain
  cases plain

theorem startsAt (h : d.Unmarked) (mark : isMark m = true) :
    d.startsAt (p ++ m :: b) = d.startsAt (p ++ m :: a) := by
  rw [Delimiter.startsAt, Delimiter.startsAt, Bool.eq_iff_iff]
  simp only [Bool.and_eq_true, List.isPrefixOf_iff_prefix, prefix_of_unmarked (h.not_mem mark)]

/-- A line with a mark is not the delimiter's. -/
theorem fillsLine_mark (h : d.Unmarked) (mark : isMark m = true) (oneLine : '\n' ∉ p) :
    d.fillsLine (p ++ m :: a) = false := by
  rw [Delimiter.fillsLine, Bool.eq_false_iff]
  intro same
  have line : m ∈ currentLine (p ++ m :: a) := by
    rw [currentLine_append_of_not_mem oneLine]
    simp [currentLine, ne_lineFeed_of_solid (isBlank_of_isMark mark)]
  obtain ⟨blanks, split, blank⟩ := trimEnd_append_blanks (currentLine (p ++ m :: a))
  rw [split, List.mem_append] at line
  rcases line with mem | mem
  · simp only [sameIgnoringCase, beq_iff_eq] at same
    have lowered : m.toLower ∈ lower d.text.toList := same ▸ List.mem_map_of_mem mem
    obtain ⟨c, mem', letter⟩ := List.mem_map.mp lowered
    exact h.not_mem mark (eq_of_toLower_eq mark letter ▸ mem')
  · have solid := isBlank_of_isMark mark
    rw [blank m mem] at solid
    cases solid

end Delimiter.Unmarked

namespace Context

variable {ctx : Context}

theorem wordAhead_mark (unmarked : ctx.delimiter.Unmarked) (mark : isMark m = true) :
    ctx.wordAhead (p ++ m :: b) = ctx.wordAhead (p ++ m :: a) := by
  induction p with
  | nil => simp [wordAhead, isWordChar_of_isMark mark]
  | cons c p ih =>
    have starts : ctx.delimiter.startsAt (c :: p ++ m :: b) =
        ctx.delimiter.startsAt (c :: p ++ m :: a) := unmarked.startsAt mark
    rw [List.cons_append, List.cons_append] at starts ⊢
    rw [wordAhead, wordAhead, starts, ih]

theorem wordAhead_mark_le (mark : isMark m = true) :
    (ctx.wordAhead (p ++ m :: a)).length ≤ p.length := by
  induction p with
  | nil => simp [wordAhead, isWordChar_of_isMark mark]
  | cons c p ih =>
    rw [List.cons_append, wordAhead]
    split
    · exact Nat.succ_le_succ ih
    · exact Nat.zero_le _

theorem takeWhile_mark (mark : isMark m = true) :
    (p ++ m :: b).takeWhile ctx.isWordChar = (p ++ m :: a).takeWhile ctx.isWordChar := by
  induction p with
  | nil => simp [isWordChar_of_isMark mark]
  | cons c p ih =>
    rw [List.cons_append, List.cons_append, List.takeWhile_cons, List.takeWhile_cons, ih]

theorem startsWord_of_isMark (mark : isMark m = true) : ctx.startsWord m = false := by
  have word := isWordChar_of_isMark mark ctx
  simp only [isWordChar, Bool.or_eq_false_iff] at word
  simp [startsWord, word]

theorem tokenAhead?_mark (mark : isMark m = true) :
    ctx.tokenAhead? (p ++ m :: b) = ctx.tokenAhead? (p ++ m :: a) := by
  induction p with
  | nil =>
    have solid := isBlank_of_isMark mark
    simp only [List.nil_append, tokenAhead?_of_solid ctx solid, startsWord_of_isMark mark]
    rfl
  | cons c p ih =>
    cases blank : isBlank c with
    | true =>
      rw [List.cons_append, List.cons_append, tokenAhead?_of_blank ctx blank,
        tokenAhead?_of_blank ctx blank]
      exact ih
    | false =>
      have word : (p ++ m :: b).takeWhile ctx.isWordChar = (p ++ m :: a).takeWhile ctx.isWordChar :=
        takeWhile_mark mark
      rw [List.cons_append, List.cons_append, tokenAhead?_of_solid ctx blank,
        tokenAhead?_of_solid ctx blank, word]

theorem seesWord_mark (unmarked : ctx.delimiter.Unmarked) (mark : isMark m = true) :
    ctx.seesWord (p ++ m :: b) = ctx.seesWord (p ++ m :: a) := by
  have short : (ctx.wordAhead (p ++ m :: a)).length ≤ p.length := wordAhead_mark_le mark
  rw [seesWord, seesWord, wordAhead_mark (b := b) (a := a) unmarked mark,
    List.drop_append_of_le_length short, List.drop_append_of_le_length short,
    tokenAhead?_mark (b := b) (a := a) mark]

end Context

end Mark

namespace Session

variable {s t s' t' : Session} {draft e draft' e' : Option Draft} {found : List Statement}
variable {dialect : Dialect} {d : Delimiter} {script : String}

variable {p a b : List Char} {m : Char}

/-- Before the sealed text: the same has been passed, and what is ahead differs behind a mark. -/
theorem delimiterLength?_mark {p₀ p₁ : List Char} (alike : Alike s draft s' draft')
    (unmarked : s.context.delimiter.Unmarked) (mark : isMark m = true)
    (cursor : s.cursor = .between p₀ (p₁ ++ m :: a))
    (cursor' : s'.cursor = .between p₀ (p₁ ++ m :: b)) :
    s'.delimiterLength? = s.delimiterLength? := by
  have content : s'.cursor.content = s.cursor.content := by rw [cursor, cursor']; rfl
  have ahead : s.cursor.ahead = p₁ ++ m :: a := by rw [cursor]; rfl
  have ahead' : s'.cursor.ahead = p₁ ++ m :: b := by rw [cursor']; rfl
  have starts : s.context.delimiter.startsAt s'.cursor.ahead =
      s.context.delimiter.startsAt s.cursor.ahead := by
    rw [ahead, ahead']
    exact unmarked.startsAt mark
  have line : (if s'.cursor.atLineOf s.context.delimiter then some (lineLength s'.cursor.ahead)
        else none) =
      if s.cursor.atLineOf s.context.delimiter then some (lineLength s.cursor.ahead) else none := by
    simp only [Cursor.atLineOf, content, ahead, ahead']
    by_cases oneLine : '\n' ∈ p₁
    · have same := fun after => currentLine_of_mem oneLine after
      simp only [Delimiter.fillsLine, lineLength, same]
    · rw [unmarked.fillsLine_mark mark oneLine, unmarked.fillsLine_mark mark oneLine]
      simp
  simp only [delimiterLength?, Context.blockDepth, alike.delimiter, alike.blocks, alike.parens,
    starts, line]
  rfl

theorem facing_skip {w cur cur'} {n : Nat} (h : Facing p a b cur cur') (more : a ≠ [])
    (rest : (cur.skip n).ahead = w ++ a) :
    Facing p a b (cur.skip n) (cur'.skip n) ∧ n ≤ cur.ahead.length - a.length := by
  have fits : n + a.length ≤ cur.ahead.length := by
    have lengths := congrArg List.length rest
    have pos := List.length_pos_iff.mpr more
    simp only [Cursor.skip_ahead, List.length_drop, List.length_append] at lengths
    omega
  exact ⟨h.skip fits, by omega⟩

/-- Before a mark no session is stuck. -/
theorem not_stuck_mark {x : Draft} (mark : isMark m = true) (ahead : s.cursor.ahead = m :: a) :
    ¬ s.Stuck x := by
  rintro ⟨c, rest, ahead', -, token, -⟩
  rw [ahead] at ahead'
  obtain ⟨rfl, -⟩ := List.cons.inj ahead'
  have starts := token_word token
  rw [Context.startsWord_of_isMark mark] at starts
  cases starts

/-- A pass that ends before the mark sees nothing of what is behind it. -/
theorem sight_mark (std : s.dialect.Standard) (alike : Alike s draft s' draft')
    (unmarked : s.context.delimiter.Unmarked) (mark : isMark m = true)
    (facing : Facing p (m :: a) (m :: b) s.cursor s'.cursor)
    (inside : s.cursor.ahead ≠ m :: a) (closed : (s.sight draft).Closed)
    (fits : (s.sight draft).length ≤ s.cursor.ahead.length - (m :: a).length) :
    s'.sight draft' = s.sight draft := by
  obtain ⟨p₀, p₁, -, cursor, cursor'⟩ := facing.places
  have ahead : s.cursor.ahead = p₁ ++ m :: a := by rw [cursor]; rfl
  have ahead' : s'.cursor.ahead = p₁ ++ m :: b := by rw [cursor']; rfl
  rw [ahead, List.length_append, Nat.add_sub_cancel] at fits
  refine alike.sight_seam (.mark a b mark) std ?_ ahead ahead' closed fits
    (delimiterLength?_mark alike unmarked mark cursor cursor') ?_
  · rintro rfl
    exact inside ahead
  · intro _
    refine Context.seesWord_mark ?_ mark
    rw [scope]
    split <;> exact unmarked

/-- The state of a run that has not yet passed the mark, and that of the other run there. -/
structure Mirrored (p a b : List Char) (s : Session) (draft : Option Draft) (s' : Session)
    (draft' : Option Draft) : Prop where
  alike : Alike s draft s' draft'
  facing : Facing p a b s.cursor s'.cursor
  together : Together (Facing p a b) draft draft'

theorem step_mirrored (std : s.dialect.Standard) (unmarked : s.context.delimiter.Unmarked)
    (mark : isMark m = true) (h : Mirrored p (m :: a) (m :: b) s draft s' draft')
    (hc : s.Classified draft) (step : Step s draft t e) {w : List Char}
    (ahead : t.cursor.ahead = w ++ m :: a) :
    ∃ t' e', Step s' draft' t' e' ∧ Mirrored p (m :: a) (m :: b) t e t' e' := by
  have pass := pass_of_step step
  have moves := more_moves std pass
  rw [moves] at ahead
  obtain ⟨facing, fits⟩ := facing_skip h.facing (List.cons_ne_nil m a) ahead
  have inside : s.cursor.ahead ≠ m :: a := by
    intro here
    rw [← moves] at ahead
    rcases step_advances step hc with shorter | ⟨x, -, stuck⟩
    · rw [here, ahead, List.length_append] at shorter
      omega
    · obtain ⟨piece, whole, -⟩ := step_cut step
      rw [here, ahead, ← List.append_assoc] at whole
      have nothing := List.append_eq_nil_iff.mp (List.self_eq_append_left.mp whole)
      exact not_stuck_mark mark (by rw [ahead, nothing.2]; rfl) stuck
  have closed : (s.sight draft).Closed := closed_of_pass std (by rw [pass]; simp)
  have same := sight_mark std h.alike unmarked mark h.facing inside closed fits
  have matched := matched_pass std h.alike same
  rw [pass] at matched
  generalize pass' : s'.pass draft' = r at matched
  cases matched with
  | more alike cursor cursor' =>
    have step' := step_of_pass pass'
    refine ⟨_, _, step', alike, ?_, step_together h.together h.facing step step' alike⟩
    rw [cursor, cursor']
    exact facing

theorem found_mirrored (std : s.dialect.Standard) (unmarked : s.context.delimiter.Unmarked)
    (mark : isMark m = true) (h : Mirrored p (m :: a) (m :: b) s draft s' draft')
    {statement : Statement} (found : s.pass draft = .found t statement) {w : List Char}
    (ahead : t.cursor.ahead = w ++ m :: a) :
    ∃ t', s'.pass draft' = .found t' statement ∧ statement.stop ≤ byteSize p ∧
      Mirrored p (m :: a) (m :: b) t none t' none := by
  have moves := found_moves std found
  rw [moves] at ahead
  obtain ⟨facing, fits⟩ := facing_skip h.facing (List.cons_ne_nil m a) ahead
  obtain ⟨x, rfl, cut, place⟩ := pass_found found
  have inside : s.cursor.ahead ≠ m :: a := by
    intro here
    rcases place with ⟨c, rest, n, split, gap, rfl⟩ | ⟨empty, -⟩
    · have taken := delimiter_pos split gap
      have left : (s.cursor.skip n).ahead = w ++ m :: a := (congrArg Cursor.ahead moves).trans ahead
      have lengths := congrArg List.length left
      rw [Cursor.skip_ahead, here, List.length_drop, List.length_append,
        List.length_cons] at lengths
      omega
    · rw [here] at empty
      cases empty
  have closed : (s.sight (some x)).Closed := closed_of_pass std (by rw [found]; simp)
  have same := sight_mark std h.alike unmarked mark h.facing inside closed fits
  have matched := matched_pass std h.alike same
  rw [found] at matched
  generalize pass' : s'.pass draft' = r at matched
  cases matched with
  | found alike cursor cursor' delimiter =>
    obtain ⟨x', rfl, cut', -⟩ := pass_found pass'
    cases h.together with
    | some starts =>
      obtain ⟨equal, before⟩ := cut_facing h.alike.delimiter starts h.facing
      rw [← cut', ← cut] at equal
      refine ⟨_, by rw [equal], cut ▸ before, alike, ?_, .none⟩
      rw [cursor, cursor']
      exact facing

/-- Up to the mark, a run over the one script is also a run over the other. -/
theorem visits_mirrored (std : dialect.Standard) (unmarked : d.Unmarked) (mark : isMark m = true)
    (h : Visits dialect d (String.ofList (p ++ m :: a)) s draft found) {w : List Char}
    (ahead : s.cursor.ahead = w ++ m :: a) :
    ∃ s' draft', Visits dialect d (String.ofList (p ++ m :: b)) s' draft' found ∧
      Mirrored p (m :: a) (m :: b) s draft s' draft' ∧
      ∀ statement ∈ found, statement.stop ≤ byteSize p := by
  induction h generalizing w with
  | start =>
    refine ⟨ofScript dialect d _, none, .start, ⟨?_, ?_, .none⟩, ?_⟩
    · exact ⟨rfl, rfl, rfl, rfl, rfl, rfl, by rintro ⟨⟩, .none⟩
    · refine .intro ⟨[], p, rfl, ?_, ?_⟩ <;> simp [ofScript, Cursor.start_eq_between]
    · intro statement mem
      cases mem
  | @step s t draft e found before step ih =>
    obtain ⟨piece, whole, -⟩ := step_cut step
    rw [ahead, ← List.append_assoc] at whole
    obtain ⟨s', draft', visits, mirrored, stops⟩ := ih whole
    have steady := visits_steady std before
    obtain ⟨t', e', step', later⟩ := step_mirrored (steady.dialect ▸ std)
      (steady.delimiter ▸ unmarked) mark mirrored steady.classified step ahead
    exact ⟨t', e', .step visits step', later, stops⟩
  | @found s t draft found statement before pass ih =>
    have steady := visits_steady std before
    have std' : s.dialect.Standard := steady.dialect ▸ std
    have whole : s.cursor.ahead =
        (s.cursor.ahead.take (s.sight draft).length ++ w) ++ m :: a := by
      have rest := found_moves std' pass
      rw [rest, Cursor.skip_ahead] at ahead
      rw [List.append_assoc, ← ahead, List.take_append_drop]
    obtain ⟨s', draft', visits, mirrored, stops⟩ := ih whole
    obtain ⟨t', pass', stop, later⟩ := found_mirrored std' (steady.delimiter ▸ unmarked) mark
      mirrored pass ahead
    refine ⟨t', none, .found visits pass', later, ?_⟩
    intro x mem
    rcases List.mem_append.mp mem with mem | mem
    · exact stops x mem
    · rw [List.mem_singleton.mp mem]
      exact stop

variable {v : Vendor} {form : Sealed} {value value' q : List Char}

theorem delimiterLength?_at_mark (unmarked : s.context.delimiter.Unmarked) (mark : isMark m = true)
    (ahead : s.cursor.ahead = m :: a) : s.delimiterLength? = none := by
  have starts : s.context.delimiter.startsAt ([] ++ m :: a) = false := by
    rw [Delimiter.startsAt, Bool.eq_false_iff]
    intro begins
    simp only [Bool.and_eq_true, Bool.not_eq_true', List.isEmpty_eq_false_iff,
      List.isPrefixOf_iff_prefix, prefix_of_unmarked (unmarked.not_mem mark),
      List.prefix_nil] at begins
    exact begins.1.2 begins.2
  have line : s.context.delimiter.fillsLine ([] ++ m :: a) = false :=
    unmarked.fillsLine_mark mark (List.not_mem_nil)
  rw [List.nil_append] at starts line
  simp [delimiterLength?, Cursor.atLineOf, ahead, starts, line]

/-- Where a sealed text is ahead, the next pass takes it as one token or one comment. -/
theorem sight_sealed (vendor : v = .generic ∨ v = .postgres ∨ v = .sqlserver)
    (dialect : s.dialect = v.dialect) (unmarked : s.context.delimiter.Unmarked)
    (reads : form.ReadBy v.dialect) (holds : form.Holds value) (apart : form.Apart q)
    (ahead : s.cursor.ahead = form.spell value ++ q) :
    s.sight draft = match form with
      | .quoted _ _ => .text (.closed (form.spell value).length)
      | .blockComment => .gap (.comment (.closed (form.spell value).length)) := by
  have std := Vendor.standard vendor
  have standing : s.atTerminator = false := by
    rw [atTerminator, dialect, std.terminator]
    rfl
  cases form with
  | quoted opens closes =>
    obtain ⟨mark, other, -, construct, quote⟩ := Sealed.marks_of_readBy vendor reads
    have ahead' : s.cursor.ahead = opens :: (doubled closes value ++ closes :: q) := by
      rw [ahead]
      simp [Sealed.spell]
    have outside := delimiterLength?_at_mark unmarked mark ahead'
    have dash : opens ≠ '-' := by
      rintro rfl
      exact absurd mark (by decide)
    have hash : opens ≠ '#' := by
      rintro rfl
      exact absurd mark (by decide)
    have dollar : opens ≠ '$' := by
      rintro rfl
      exact absurd mark (by decide)
    have comment : s.dialect.comment? s.cursor.ahead = none := by
      simp [Dialect.comment?, ahead', List.isPrefixOf, dash.symm, hash, other.symm]
    have gap : s.gap? draft opens = none :=
      gap?_eq_none_iff.mpr ⟨isBlank_of_isMark mark, outside, fun _ => standing, comment⟩
    have extent : Quote.extent ⟨1, closes, false, construct⟩
        (opens :: (doubled closes value ++ closes :: q)) =
          .closed ((Sealed.quoted opens closes).spell value).length := by
      have ends : quotedEnd? closes false 1 (doubled closes value ++ closes :: q) =
          some (1 + (doubled closes value).length + 1) := quotedEnd?_doubled apart 1 value
      simp [Quote.extent, ends, Sealed.spell]
      omega
    simp only [sight, ahead', gap, dialect, Dialect.token, Dialect.dollarQuote?, beq_iff_eq, dollar,
      Bool.and_eq_true, and_false, if_false, quote, extent]
  | blockComment =>
    have ahead' : s.cursor.ahead = '/' :: '*' :: (value ++ ['*', '/'] ++ q) := by
      rw [ahead]
      simp [Sealed.spell]
    have outside := delimiterLength?_at_mark unmarked (by decide) ahead'
    have comment : s.dialect.comment? s.cursor.ahead = some (.closed (value.length + 2 + 2)) := by
      have ends := commentEnd?_sealed holds q
      simp only [List.append_assoc, List.cons_append, List.nil_append] at ends
      simp [Dialect.comment?, ahead', List.isPrefixOf, ends]
    have gap : s.gap? draft '/' = some (.comment (.closed (value.length + 2 + 2))) := by
      have solid : isBlank '/' = false := by decide
      simp [gap?, solid, outside, standing, comment]
    simp [sight, ahead', gap, Sealed.spell]

/-- After a sealed text alike sessions are alike, whatever its value. -/
theorem pass_sealed (vendor : v = .generic ∨ v = .postgres ∨ v = .sqlserver)
    (alike : Alike s draft s' draft') (dialect : s.dialect = v.dialect)
    (unmarked : s.context.delimiter.Unmarked) (reads : form.ReadBy v.dialect)
    (holds : form.Holds value) (holds' : form.Holds value') (apart : form.Apart q)
    (ahead : s.cursor.ahead = form.spell value ++ q)
    (ahead' : s'.cursor.ahead = form.spell value' ++ q) :
    ∃ t e t' e', Step s draft t e ∧ Step s' draft' t' e' ∧ Alike t e t' e' ∧
      t.cursor = s.cursor.skip (form.spell value).length ∧
      t'.cursor = s'.cursor.skip (form.spell value').length := by
  have std : s.dialect.Standard := dialect ▸ Vendor.standard vendor
  have dialect' : s'.dialect = v.dialect := alike.dialect.trans dialect
  have std' : s'.dialect.Standard := dialect' ▸ Vendor.standard vendor
  have pass := pass_of_sight std draft
  have pass' := pass_of_sight std' draft'
  rw [sight_sealed vendor dialect unmarked reads holds apart ahead] at pass
  rw [sight_sealed vendor dialect' (alike.delimiter ▸ unmarked) reads holds' apart ahead'] at pass'
  cases form with
  | quoted opens closes =>
    exact ⟨_, _, _, _, step_of_pass pass, step_of_pass pass', alike.begun.afterText.skip _ _, rfl,
      rfl⟩
  | blockComment =>
    exact ⟨_, _, _, _, step_of_pass pass, step_of_pass pass', alike.skip _ _, rfl, rfl⟩

/-- Two beginnings of a text with as many bytes are the same. -/
theorem eq_of_byteSize {a a' b b' : List Char} (whole : a ++ b = a' ++ b')
    (same : byteSize a = byteSize a') : a = a' ∧ b = b' := by
  induction a generalizing a' with
  | nil =>
    cases a' with
    | nil => exact ⟨rfl, whole⟩
    | cons c a' =>
      have pos := c.utf8Size_pos
      rw [byteSize_nil, byteSize_cons] at same
      omega
  | cons c a ih =>
    cases a' with
    | nil =>
      have pos := c.utf8Size_pos
      rw [byteSize_nil, byteSize_cons] at same
      omega
    | cons c' a' =>
      obtain ⟨rfl, rest⟩ := List.cons.inj whole
      rw [byteSize_cons, byteSize_cons] at same
      obtain ⟨rfl, rfl⟩ := ih rest (by omega)
      exact ⟨rfl, rfl⟩

theorem agree_append {related : Statement → Statement → Prop} {before : List Statement}
    {r r' : Except Fault (List Statement)}
    (same : ∀ statement ∈ before, related statement statement)
    (rest : Agree (List.Forall₂ related) r r') :
    Agree (List.Forall₂ related) (r.map (before ++ ·)) (r'.map (before ++ ·)) := by
  cases rest with
  | ok later => exact .ok (List.rel_append (List.forall₂_same.mpr same) later)
  | error fault => exact .error fault

/-- From the sealed text on. -/
theorem agree_of_sealed (vendor : v = .generic ∨ v = .postgres ∨ v = .sqlserver)
    (reads : form.ReadBy v.dialect) (unmarked : s.context.delimiter.Unmarked)
    (holds : form.Holds value) (holds' : form.Holds value') (apart : form.Apart q)
    (dialect : s.dialect = v.dialect)
    (cursor : s.cursor = .between p (form.spell value ++ q))
    (cursor' : s'.cursor = .between p (form.spell value' ++ q)) (live : s.exhausted = false)
    (alike : Alike s draft s' draft')
    (together : Together (Facing p (form.spell value ++ q) (form.spell value' ++ q)) draft draft') :
    ∃ t e t' e', Step s draft t e ∧ Step s' draft' t' e' ∧
      Agree (List.Forall₂ (Replaced p (form.spell value) (form.spell value')))
        (t.onward e) (t'.onward e') := by
  obtain ⟨m, -, spells⟩ := Sealed.spell_marks vendor reads
  obtain ⟨-, -, solid⟩ := spells value
  obtain ⟨-, -, solid'⟩ := spells value'
  obtain ⟨t, e, t', e', step, step', after, moved, moved'⟩ := pass_sealed vendor alike dialect
    unmarked reads holds holds' apart (by rw [cursor]; rfl) (by rw [cursor']; rfl)
  refine ⟨t, e, t', e', step, step', ?_⟩
  have past : Past p (form.spell value) (form.spell value') q t.cursor t'.cursor := by
    rw [moved, moved', cursor, cursor', Cursor.skip_text, Cursor.skip_text]
    exact .intro ⟨[], q, rfl, by rw [List.append_nil], by rw [List.append_nil]⟩
  have begun : Together (Corresponds p (form.spell value) (form.spell value') q) draft draft' := by
    cases together with
    | none => exact .none
    | some facing => exact .some (Or.inl facing)
  have here : Corresponds p (form.spell value) (form.spell value') q s.cursor s'.cursor :=
    Or.inl (.intro ⟨p, [], by rw [List.append_nil], cursor, cursor'⟩)
  have std : t.dialect.Standard := step_dialect step ▸ dialect ▸ Vendor.standard vendor
  exact onward_past solid solid' std ((step_exhausted step).trans live) after past
    (step_together begun here step step' after)

end Session

open Session

/-- The contents of a sealed text have no influence. If a run over a script comes to the text,
and other contents are put into it, either both scripts are split, into as many statements with
the same delimiters and texts but for the contents, or both fail with the same fault, told at
its own line. -/
theorem splitFrom_sealed (v : Vendor) (d : Delimiter) (form : Sealed)
    (p q value value' : List Char) (s : Session) (draft : Option Draft) (found : List Statement)
    (vendor : v = .generic ∨ v = .postgres ∨ v = .sqlserver) (unmarked : d.Unmarked)
    (reads : form.ReadBy v.dialect) (holds : form.Holds value) (holds' : form.Holds value')
    (apart : form.Apart q)
    (visits : Visits v.dialect d (String.ofList (p ++ (form.spell value ++ q))) s draft found)
    (here : s.cursor.offset = byteSize p) :
    Agree (List.Forall₂ (Replaced p (form.spell value) (form.spell value')))
      (splitFrom v.dialect d (String.ofList (p ++ (form.spell value ++ q))))
      (splitFrom v.dialect d (String.ofList (p ++ (form.spell value' ++ q)))) := by
  have std := Vendor.standard vendor
  have steady := visits_steady std visits
  obtain ⟨m, mark, spells⟩ := Sealed.spell_marks vendor reads
  obtain ⟨rest, spell, -⟩ := spells value
  obtain ⟨rest', spell', -⟩ := spells value'
  obtain ⟨passed, whole, place⟩ := visits_place visits
  have offset : byteSize p = byteSize passed := by
    rw [← here, place]
    rfl
  rw [String.toList_ofList] at whole
  obtain ⟨rfl, ahead⟩ := eq_of_byteSize whole offset
  have ahead' : s.cursor.ahead = [] ++ m :: (rest ++ q) := by
    rw [← ahead, spell]
    rfl
  have visits' : Visits v.dialect d (String.ofList (p ++ m :: (rest ++ q))) s draft found := by
    rw [spell] at visits
    exact visits
  obtain ⟨s', draft', other, mirrored, stops⟩ := visits_mirrored (b := rest' ++ q) std unmarked mark
    visits' ahead'
  obtain ⟨p₀, p₁, split, cursor, cursor'⟩ := mirrored.facing.places
  have nothing : p₁ = [] := by
    rw [cursor] at ahead'
    exact List.append_cancel_right ahead'
  subst nothing
  rw [List.append_nil] at split
  subst split
  have facing : Facing p (form.spell value ++ q) (form.spell value' ++ q) =
      Facing p (m :: (rest ++ q)) (m :: (rest' ++ q)) := by
    rw [spell, spell']
    rfl
  obtain ⟨t, e, t', e', step, step', agree⟩ := agree_of_sealed vendor reads
    (steady.delimiter ▸ unmarked) holds holds' apart steady.dialect
    (by rw [cursor, spell]; rfl) (by rw [cursor', spell']; rfl) steady.live mirrored.alike
    (facing ▸ mirrored.together)
  have script : String.ofList (p ++ m :: (rest' ++ q)) =
      String.ofList (p ++ (form.spell value' ++ q)) := by
    rw [spell']
    rfl
  rw [script] at other
  rw [splitFrom_of_visits std (.step visits step), splitFrom_of_visits std (.step other step')]
  refine agree_append ?_ agree
  intro statement mem
  exact .apart rfl (Or.inl (stops statement mem)) rfl

/-- A closing mark in the one value, a line with the delimiter and a quote in the other. -/
theorem splitFrom_sealed_bracket :
    splitFrom .sqlserver .go "SELECT [a]]b]\nGO\nSELECT 2" =
        .ok [⟨1, 0, 13, "SELECT [a]]b]", .go⟩, ⟨3, 17, 25, "SELECT 2", .go⟩] ∧
      Agree (List.Forall₂ (Replaced "SELECT ".toList "[a]]b]".toList "[\nGO\n']".toList))
        (splitFrom .sqlserver .go "SELECT [a]]b]\nGO\nSELECT 2")
        (splitFrom .sqlserver .go "SELECT [\nGO\n']\nGO\nSELECT 2") := by
  let s := Session.ofScript .sqlserver .go "SELECT [a]]b]\nGO\nSELECT 2"
  let d := Draft.begin s.cursor
  let t := { s.skip 6 with context := { s.context with kind := .sqlserver } }
  have word : Session.pass s none = .more t (some (d.afterWord "SELECT")) := by decide +kernel
  have blank : t.pass (some (d.afterWord "SELECT")) =
      .more (t.skip 1) (some (d.afterWord "SELECT")) := by decide +kernel
  have visits : Visits .sqlserver .go "SELECT [a]]b]\nGO\nSELECT 2" (t.skip 1)
      (some (d.afterWord "SELECT")) [] :=
    .step (.step .start (step_of_pass word)) (step_of_pass blank)
  have apart : (Sealed.quoted '[' ']').Apart "\nGO\nSELECT 2".toList :=
    show "\nGO\nSELECT 2".toList.head? ≠ some ']' by decide +kernel
  refine ⟨by decide +kernel, ?_⟩
  exact splitFrom_sealed .sqlserver .go (.quoted '[' ']') "SELECT ".toList "\nGO\nSELECT 2".toList
    "a]b".toList "\nGO\n'".toList (t.skip 1) (some (d.afterWord "SELECT")) []
    (Or.inr (Or.inr rfl)) (by decide +kernel) (Or.inr (by decide +kernel)) trivial trivial apart
    visits (by decide +kernel)

end SqlBoundary
