import SqlBoundary.Proofs.Breaks

/-!
# Gaps

Blanks and comments stand between tokens. The reader passes them one after another, and so does
any session that differs in its place only. The search for a keyword passes them as if they were
not there, but it does not know the comments that begin with a hash. Where nothing is misread up
to a gap, it comes to the same with another gap in its place.
-/

namespace SqlBoundary

open Text Lexeme

namespace Session

variable {s s' t : Session} {draft draft' e : Option Draft} {text after : List Char}

/-- Blanks and comments, which the session passes one after another if `after` comes next. -/
inductive Spaced (s : Session) (draft : Option Draft) (after : List Char) : List Char → Prop
  | nil : Spaced s draft after []
  | blank {c : Char} {rest : List Char} (blank : isBlank c = true)
      (later : Spaced s draft after rest) : Spaced s draft after (c :: rest)
  | comment {c : Char} {text rest : List Char}
      (found : (s.facing (c :: text ++ (rest ++ after))).gap? draft c =
        some (.comment (.closed (c :: text).length)))
      (later : Spaced s draft after rest) : Spaced s draft after (c :: text ++ rest)

theorem Spaced.passes (spaced : s.Spaced draft after text) (inline : s.Inline)
    (twins : Twins s draft s' draft') (ahead : s'.cursor.ahead = text ++ after) :
    Passes s' draft' (s'.skip text.length) draft' := by
  induction spaced generalizing s' with
  | nil => exact .refl s' draft'
  | @blank c rest blank _ ih =>
    have here : s'.gap? draft' c = some .blank := by
      simp only [gap?, blank, if_true]
    exact .step (.gap ahead here rfl) (ih (twins.skip 0 1) (skip_one_ahead ahead))
  | @comment c text rest found _ ih =>
    rw [List.append_assoc] at ahead
    have here : s'.gap? draft' c = some (.comment (.closed (c :: text).length)) := by
      rw [twins.gap? inline, ahead]
      exact found
    have more : (s'.skip (c :: text).length).cursor.ahead = rest ++ after := by
      rw [skip_cursor, Cursor.skip_ahead, ahead, List.drop_left]
    have whole : (s'.skip (c :: text).length).skip rest.length =
        s'.skip (c :: text ++ rest).length := by
      rw [skip, skip, skip, Cursor.skip_skip, List.length_append]
    exact .step (.gap ahead here rfl) (whole ▸ ih (twins.skip 0 _) more)

theorem opensGap_of_comment {dialect : Dialect} {c : Char} {rest : List Char} {extent : Extent}
    (found : dialect.comment? (c :: rest) = some extent) :
    c = '-' ∨ c = '/' ∨ dialect.hashComments = true ∧ c = '#' := by
  rw [Dialect.comment?] at found
  split at found
  · next line =>
    simp only [Bool.or_eq_true, Bool.and_eq_true, List.isPrefixOf_iff_prefix,
      List.cons_prefix_cons, List.head?_cons, beq_iff_eq, Option.some.injEq] at line
    rcases line with ⟨rfl, -⟩ | hash
    · exact Or.inl rfl
    · exact Or.inr (Or.inr hash)
  · split at found
    · next block =>
      rw [List.isPrefixOf_iff_prefix, List.cons_prefix_cons] at block
      exact Or.inr (Or.inl block.1.symm)
    · cases found

theorem Spaced.breaks (spaced : s.Spaced draft after text) (nonempty : text ≠ []) :
    Breaks (text ++ after) := by
  cases spaced with
  | nil => exact absurd rfl nonempty
  | @blank c rest blank => exact ⟨c, rfl, by simp [opensGap, blank]⟩
  | @comment c text rest found =>
    refine ⟨c, rfl, ?_⟩
    rcases opensGap_of_comment (comment_of_gap? found).2 with rfl | rfl | ⟨-, rfl⟩ <;> decide

/-- The session, in a dialect where no comment begins with a hash. -/
def hashless (s : Session) : Session :=
  { s with dialect := { s.dialect with hashComments := false } }

/-- No name goes on into a gap. -/
theorem Spaced.unnamed (spaced : s.hashless.Spaced draft after text) (nonempty : text ≠ []) :
    ∃ c ∈ (text ++ after).head?, isNameChar c = false := by
  cases spaced with
  | nil => exact absurd rfl nonempty
  | @blank c rest blank => exact ⟨c, rfl, isNameChar_of_isBlank blank⟩
  | @comment c text rest found =>
    refine ⟨c, rfl, ?_⟩
    rcases opensGap_of_comment (comment_of_gap? found).2 with rfl | rfl | ⟨no, -⟩
    · decide +kernel
    · decide +kernel
    · cases no

theorem Spaced.blind (spaced : s.hashless.Spaced draft after text) : Blind text after := by
  induction spaced with
  | nil => exact fun _ _ => rfl
  | @blank c rest blank _ ih =>
    intro keywords depth
    have one : seekKeyword keywords 0 depth ([c] ++ (rest ++ after)) =
        seekKeyword keywords 0 depth (rest ++ after) := seekKeyword_blanks (by simpa using blank)
    exact one.trans (ih keywords depth)
  | @comment c text rest found _ ih =>
    have comment := (comment_of_gap? found).2
    have hash : (c :: text ++ (rest ++ after)).head? ≠ some '#' := by
      rintro ⟨⟩
      rcases opensGap_of_comment comment with same | same | ⟨no, -⟩
      · exact absurd same (by decide)
      · exact absurd same (by decide)
      · cases no
    obtain ⟨_, _, -, -, blind⟩ := hidden_of_comment comment hash
    have whole : (s.hashless.facing (c :: text ++ (rest ++ after))).cursor.ahead =
        c :: text ++ (rest ++ after) := rfl
    rw [whole, List.take_left, List.drop_left] at blind
    intro keywords depth
    rw [List.append_assoc]
    exact (blind _ rfl keywords depth).trans (ih keywords depth)

end Session

namespace Lexeme

variable {a b p rest cs : List Char} {c : Char}

/-- Texts between which the search finds no difference. No name goes on into them. -/
structure Interchangeable (a b : List Char) : Prop where
  ends : ∃ m ∈ a.head?, isNameChar m = false
  ends' : ∃ m ∈ b.head?, isNameChar m = false
  same : ∀ keywords depth, seekKeyword keywords 0 depth b = seekKeyword keywords 0 depth a

/-- The search comes to the same with `b` after this text as with `a`, also where it comes to the
text within a name. -/
structure Indifferent (a b p : List Char) : Prop where
  same : ∀ keywords depth,
    seekKeyword keywords 0 depth (p ++ b) = seekKeyword keywords 0 depth (p ++ a)
  within : ∀ keywords depth, seekKeyword keywords 0 depth (p.dropWhile isNameChar ++ b) =
    seekKeyword keywords 0 depth (p.dropWhile isNameChar ++ a)

theorem Interchangeable.indifferent (h : Interchangeable a b) : Indifferent a b [] :=
  ⟨h.same, h.same⟩

theorem Indifferent.plain (h : Interchangeable a b)
    (plain : opensText c (rest ++ a).head? = false)
    (plain' : opensText c (rest ++ b).head? = false) (later : Indifferent a b rest) :
    Indifferent a b (c :: rest) := by
  obtain ⟨m, head, mark⟩ := h.ends
  obtain ⟨m', head', mark'⟩ := h.ends'
  have same : ∀ keywords depth, seekKeyword keywords 0 depth (c :: rest ++ b) =
      seekKeyword keywords 0 depth (c :: rest ++ a) := by
    intro keywords depth
    rw [List.cons_append, List.cons_append, seekKeyword_plain keywords depth plain,
      seekKeyword_plain keywords depth plain', (spanName rest mark head).1,
      (spanName rest mark head).2, (spanName rest mark' head').1, (spanName rest mark' head').2]
    simp only [later.same, later.within]
  refine ⟨same, ?_⟩
  by_cases name : isNameChar c = true
  · rw [List.dropWhile_cons_of_pos name]
    exact later.within
  · rw [List.dropWhile_cons_of_neg name]
    exact same

theorem Indifferent.text (mark : isNameChar c = false) (blind : Blind (c :: cs) (rest ++ a))
    (blind' : Blind (c :: cs) (rest ++ b)) (later : Indifferent a b rest) :
    Indifferent a b (c :: cs ++ rest) := by
  have same : ∀ keywords depth, seekKeyword keywords 0 depth (c :: cs ++ rest ++ b) =
      seekKeyword keywords 0 depth (c :: cs ++ rest ++ a) := by
    intro keywords depth
    rw [List.append_assoc, List.append_assoc, blind, blind', later.same]
  refine ⟨same, ?_⟩
  rw [List.cons_append, List.dropWhile_cons_of_neg (by simp [mark])]
  exact same

theorem Indifferent.unmarked {w : List Char} (h : Interchangeable a b)
    (plain : marked (rest ++ a) w = false) (plain' : marked (rest ++ b) w = false)
    (later : Indifferent a b rest) :
    Indifferent a b (w ++ rest) := by
  induction w with
  | nil => exact later
  | cons c w ih =>
    simp only [marked, Bool.or_eq_false_iff, ← List.append_assoc] at plain plain'
    exact .plain h plain.1 plain'.1 (ih plain.2 plain'.2)

/-- With another gap behind these characters, no text begins in them either. -/
theorem marked_breaks {w : List Char} (hb : Breaks b)
    (dash : (w ++ rest).getLast? = some '-' → b.head? ≠ some '-')
    (plain : marked (rest ++ a) w = false) : marked (rest ++ b) w = false := by
  induction w with
  | nil => rfl
  | cons c w ih =>
    simp only [marked, Bool.or_eq_false_iff] at plain ⊢
    refine ⟨?_, ih ?_ plain.2⟩
    · cases more : w ++ rest with
      | cons x more' =>
        rw [← List.append_assoc, more] at plain ⊢
        exact plain.1
      | nil =>
        obtain ⟨rfl, rfl⟩ := List.append_eq_nil_iff.mp more
        have quote : isQuote c = false := by
          have opens := plain.1
          simp only [opensText, Bool.or_eq_false_iff] at opens
          exact opens.1.1
        have star : b.head? ≠ some '*' := hb.head?_ne (opensGap_of_mark (by decide))
        simp only [opensText, quote, Bool.false_or, Bool.or_eq_false_iff,
          Bool.and_eq_false_imp, beq_iff_eq, List.nil_append, beq_eq_false_iff_ne]
        refine ⟨?_, fun _ => star⟩
        rintro rfl
        exact dash rfl
    · intro last
      refine dash ?_
      obtain ⟨x, more, split⟩ : ∃ x more, w ++ rest = x :: more := by
        refine List.exists_cons_of_ne_nil ?_
        intro none
        rw [none] at last
        cases last
      rw [List.cons_append, split, List.getLast?_cons_cons, ← split]
      exact last

end Lexeme

namespace Session

variable {s t : Session} {draft e : Option Draft} {a b v w x y q : List Char}

theorem Spaced.interchangeable (hx : s.hashless.Spaced draft q x)
    (hy : s.hashless.Spaced draft q y) (nonempty : x ≠ []) (nonempty' : y ≠ []) :
    Interchangeable (x ++ q) (y ++ q) where
  ends := hx.unnamed nonempty
  ends' := hy.unnamed nonempty'
  same := fun keywords depth => (hy.blind keywords depth).trans (hx.blind keywords depth).symm

/-- A quoted text that ends before one gap is passed alike before the other. -/
theorem hidden_before {dialect : Dialect} {f : Char → Bool} {p : List Char} {c : Char} {n : Nat}
    (searches : dialect.Searches) (gaps : dialect.EndsAtGaps) (here : Breaks a) (there : Breaks b)
    (token : dialect.token f c (p ++ a) = .text (.closed n)) (fits : n ≤ p.length + 1)
    (faithful : (dialect.quote? c (p ++ a)).any
      (fun q => !q.escapes && slips q.close ((c :: (p ++ a)).take n)) = false) :
    Hidden ((c :: (p ++ b)).take n) ((c :: (p ++ b)).drop n) := by
  have same : dialect.token f c (p ++ b) = dialect.token f c (p ++ a) := by
    refine Dialect.Stops.token (here.stops gaps) (there.stops gaps) ?_
    intro extent found
    rw [token] at found
    cases found
    exact ⟨n, rfl, fits⟩
  refine hidden_of_text searches (same.trans token) ?_
  have taken : ∀ r, (c :: (p ++ r)).take n = (c :: p).take n := by
    intro r
    have inside : n ≤ (c :: p).length := fits
    exact List.take_append_of_le_length inside
  rw [taken] at faithful ⊢
  rw [Dialect.Stops.quote? (here.stops gaps) (there.stops gaps)]
  exact faithful

/-- How many characters a step takes, if it leaves some. -/
theorem length_of_skip {r : List Char} {n : Nat} (moved : t.cursor = s.cursor.skip n)
    (ahead : s.cursor.ahead = v ++ r) (rest : t.cursor.ahead = r) (nonempty : r ≠ []) :
    n = v.length := by
  have left := congrArg List.length rest
  have pos := List.length_pos_iff.mpr nonempty
  rw [moved, Cursor.skip_ahead, ahead, List.length_drop, List.length_append] at left
  omega

/-- The characters that a step takes, and those it leaves. -/
theorem taken_of_skip {r : List Char} {n : Nat} (moved : t.cursor = s.cursor.skip n)
    (ahead : s.cursor.ahead = v ++ r) (rest : t.cursor.ahead = r) :
    s.cursor.ahead.take n = v ∧ s.cursor.ahead.drop n = r := by
  have left : s.cursor.ahead.drop n = r := by rw [← rest, moved, Cursor.skip_ahead]
  have split := List.take_append_drop n s.cursor.ahead
  rw [left] at split
  exact ⟨List.append_cancel_right (split.trans ahead), left⟩

/-- A quoted text is passed alike before both gaps. -/
theorem indifferent_text {dialect : Dialect} {f : Char → Bool} {c : Char} {cs : List Char}
    (searches : dialect.Searches) (gaps : dialect.EndsAtGaps) (here : Breaks a) (there : Breaks b)
    (token : dialect.token f c (cs ++ (w ++ a)) = .text (.closed (c :: cs).length))
    (faithful : (dialect.quote? c (cs ++ (w ++ a))).any
      (fun q => !q.escapes && slips q.close (c :: cs)) = false)
    (later : Indifferent a b w) : Indifferent a b (c :: cs ++ w) := by
  rw [← List.append_assoc] at token faithful
  have taken : ∀ r, (c :: (cs ++ w ++ r)).take (c :: cs).length = c :: cs := by
    intro r
    rw [List.append_assoc, ← List.cons_append, List.take_left]
  have left : ∀ r, (c :: (cs ++ w ++ r)).drop (c :: cs).length = w ++ r := by
    intro r
    rw [List.append_assoc, ← List.cons_append, List.drop_left]
  have hidden := hidden_of_text searches token (by rw [taken]; exact faithful)
  have hidden' := hidden_before searches gaps here there token (by simp)
    (by rw [taken]; exact faithful)
  rw [taken, left] at hidden hidden'
  obtain ⟨_, _, spelled, mark, blind⟩ := hidden
  obtain ⟨_, _, -, -, blind'⟩ := hidden'
  cases spelled
  exact .text mark (blind _ rfl) (blind' _ rfl) later

/-- So is a delimiter, if the search takes no part of it for the begin of a text. -/
theorem indifferent_delimiter {c : Char} {more : List Char} {n : Nat} (there : Breaks b)
    (same : Interchangeable a b) (split : s.cursor.ahead = c :: more)
    (found : s.gap? draft c = some (.delimiter n))
    (told : s.misread draft = false) (moved : t.cursor = s.cursor.skip n)
    (ahead : s.cursor.ahead = v ++ (w ++ a)) (rest : t.cursor.ahead = w ++ a)
    (dash : (v ++ w).getLast? = some '-' → b.head? ≠ some '-') (later : Indifferent a b w) :
    Indifferent a b (v ++ w) := by
  obtain ⟨taken, left⟩ := taken_of_skip moved ahead rest
  rw [misread_of_gap split found, ← split] at told
  dsimp only at told
  rw [taken, left] at told
  exact later.unmarked same told (marked_breaks there dash told)

/-- No blank and no comment is ahead. -/
def Solid (s : Session) (draft : Option Draft) : Prop :=
  ∀ c ∈ s.cursor.ahead.head?, ∀ g, s.gap? draft c = some g → g.length? = none

theorem solid_of_gap?_none {c : Char} (head : s.cursor.ahead.head? = some c)
    (gap : s.gap? draft c = none) : s.Solid draft := by
  intro x first g other
  rw [head] at first
  cases first
  rw [gap] at other
  cases other

theorem solid_of_delimiter {c : Char} {n : Nat} (head : s.cursor.ahead.head? = some c)
    (gap : s.gap? draft c = some (.delimiter n)) : s.Solid draft := by
  intro x first g other
  rw [head] at first
  cases first
  rw [gap] at other
  cases other
  rfl

/-- What a step takes is passed alike before both gaps, if it is not misread and does not belong
to the gap. -/
theorem step_indifferent (searches : s.dialect.Searches) (gaps : s.dialect.EndsAtGaps)
    (here : Breaks a) (there : Breaks b) (same : Interchangeable a b) (h : Step s draft t e)
    (told : s.misread draft = false) (ahead : s.cursor.ahead = v ++ (w ++ a))
    (rest : t.cursor.ahead = w ++ a)
    (dash : (v ++ w).getLast? = some '-' → b.head? ≠ some '-')
    (last : w = [] → s.Solid draft)
    (later : Indifferent a b w) : Indifferent a b (v ++ w) := by
  have unmarked : marked (w ++ a) v = false → Indifferent a b (v ++ w) := by
    intro plain
    exact later.unmarked same plain (marked_breaks there dash plain)
  cases h with
  | @gap _ c more g n split found length =>
    obtain ⟨taken, left⟩ := taken_of_skip (n := n) rfl ahead rest
    have passable := passable_gap split found length told
    rw [taken, left] at passable
    rcases passable with plain | ⟨x, cs, rfl, mark, blind⟩
    · exact unmarked plain
    · cases w with
      | cons y w => exact .text mark (blind _ rfl) (blind _ rfl) later
      | nil =>
        rw [last rfl c (by rw [split]; rfl) g found] at length
        cases length
  | delimiter split found =>
    exact indifferent_delimiter there same split found told rfl ahead rest dash later
  | @text _ c more u d n split solid begun token =>
    obtain ⟨kind, rfl⟩ := begin_ok begun
    obtain ⟨taken, left⟩ := taken_of_skip (n := n) rfl ahead rest
    rw [misread_of_begin split solid begun, token] at told
    dsimp only at told
    rw [← split, taken] at told
    cases v with
    | nil => exact later
    | cons x cs =>
      obtain ⟨rfl, rfl⟩ : c = x ∧ more = cs ++ (w ++ a) := by
        rw [split] at ahead
        exact List.cons.inj ahead
      have nonempty : w ++ a ≠ [] := List.append_ne_nil_of_right_ne_nil w here.ne_nil
      have long : n = (c :: cs).length := length_of_skip rfl ahead rest nonempty
      rw [long] at token
      exact indifferent_text searches gaps here there token told later
  | @symbol _ c more u d split solid begun token =>
    obtain ⟨kind, rfl⟩ := begin_ok begun
    obtain ⟨taken, left⟩ := taken_of_skip (n := 1) (by rw [countParen_eq]; rfl) ahead rest
    rw [misread_of_begin split solid begun, token] at told
    have comment := (gap?_eq_none_iff.mp solid).2.2.2
    rw [split] at comment taken left
    have plain := opensText_of_symbol searches token comment (by simpa using told)
    obtain rfl : [c] = v := taken
    obtain rfl : more = w ++ a := left
    refine unmarked ?_
    rw [marked, marked, Bool.or_false]
    exact plain
  | @directive _ c more u d x split solid begun token may line =>
    have moved := direct_cursor u x
    rw [begin_cursor begun] at moved
    obtain ⟨taken, left⟩ := taken_of_skip moved ahead rest
    rw [misread_of_begin split solid begun, token] at told
    simp only [may, line, Bool.true_and] at told
    rw [← split, taken, left] at told
    exact unmarked told
  | @word _ _ c more u _ d split solid begun token plain taken' =>
    have place := begin_cursor begun
    obtain ⟨-, blocks, lastClosed, warnings, rfl⟩ := takeWord_more taken'
    have moved : (u.afterWord.cursor) = s.cursor.skip u.word.length := by
      rw [afterWord, skip_cursor, place]
    obtain ⟨taken, -⟩ :=
      taken_of_skip (n := u.word.length) (by rw [classify_eq, ← moved]) ahead rest
    have whole : s.cursor.ahead.take u.word.length = u.word := by
      rw [← place]
      exact u.take_word
    have letters : ∀ x ∈ v, u.context.isWordChar x = true := by
      rw [← taken, whole]
      exact fun x mem => Context.isWordChar_of_mem_wordAhead mem
    exact unmarked (marked_of_word letters)

end Session

end SqlBoundary
