import SqlBoundary.Dialect.Token
import SqlBoundary.Proofs.Text

/-!
# One text with two endings

What is closed within a text is closed in the same place whatever comes after the text. Two looks
reach beyond it: after a closing mark, whether the mark comes twice, and after the first character
of a pair, whether the second one follows. Each lemma compares a text that ends with `a` and the
same text with `b` in its place, and asks of the two endings no more than these looks do.
-/

namespace SqlBoundary

open Text Lexeme

variable {p a b : List Char} {n m : Nat}

theorem eq_cons_of_append {rest : List Char} {c : Char} (split : p ++ a = c :: rest)
    (long : 0 < p.length) : ∃ more, p = c :: more ∧ more ++ a = rest := by
  cases p with
  | nil => exact absurd long (Nat.lt_irrefl 0)
  | cons x p =>
    obtain ⟨rfl, tail⟩ := List.cons.inj split
    exact ⟨p, rfl, tail⟩

theorem head?_ending (nonempty : p ≠ []) : (p ++ b).head? = (p ++ a).head? := by
  obtain ⟨x, q, rfl⟩ := List.exists_cons_of_ne_nil nonempty
  rfl

theorem prefix_ending {pattern : List Char} (begins : pattern <+: p ++ a)
    (fits : pattern.length ≤ p.length) : pattern <+: p ++ b :=
  (List.prefix_of_prefix_length_le begins (List.prefix_append p a) fits).trans
    (List.prefix_append p b)

/-- A pair stands at the begin, unless the ending brings its second character. -/
theorem pair_ending {x y : Char} (nonempty : p ≠ [])
    (second : p = [x] → b.head? = some y → a.head? = some y) (begins : [x, y] <+: p ++ b) :
    [x, y] <+: p ++ a := by
  obtain ⟨z, p, rfl⟩ := List.exists_cons_of_ne_nil nonempty
  rw [List.cons_append, List.cons_prefix_cons] at begins
  obtain ⟨rfl, next⟩ := begins
  cases p with
  | nil =>
    obtain ⟨rest, rfl⟩ := next
    obtain ⟨rest', rfl⟩ := List.head?_eq_some_iff.mp (second rfl rfl)
    exact ⟨rest', rfl⟩
  | cons w p =>
    rw [List.cons_append, List.cons_prefix_cons] at next
    obtain ⟨rfl, -⟩ := next
    exact ⟨p ++ a, rfl⟩

namespace Text

variable {pattern cs : List Char}

theorem position?_le (h : position? pattern cs = some n) : n + pattern.length ≤ cs.length := by
  obtain ⟨here, short, -⟩ := position?_eq_some_iff.mp h
  have := here.length_le
  rw [List.length_drop] at this
  omega

/-- An occurrence within the text is the first one with any ending. -/
theorem position?_ending (found : position? pattern (p ++ a) = some n)
    (fits : n + pattern.length ≤ p.length) : position? pattern (p ++ b) = some n := by
  have place : ∀ {m after after'}, m ≤ n → pattern <+: (p ++ after).drop m →
      pattern <+: (p ++ after').drop m := by
    intro m after after' upto reaches
    rw [List.drop_append_of_le_length (by omega)] at reaches ⊢
    refine prefix_ending reaches ?_
    rw [List.length_drop]
    omega
  rw [position?_eq_some_iff] at found ⊢
  obtain ⟨here, -, first⟩ := found
  refine ⟨place (Nat.le_refl n) here, ?_, ?_⟩
  · rw [List.length_append]
    omega
  · exact fun m before reaches => first m before (place (Nat.le_of_lt before) reaches)

/-- The rest of the line holds at least what it begins with. -/
theorem length_le_lineLength (oneLine : '\n' ∉ pattern) (begins : pattern <+: cs) :
    pattern.length ≤ lineLength cs := by
  obtain ⟨rest, rfl⟩ := begins
  rw [lineLength, currentLine_append_of_not_mem oneLine, List.length_append]
  exact Nat.le_add_right _ _

/-- A line takes as much with both endings, if it ends with the text or in it. -/
theorem lineLength_ending (fits : lineLength (p ++ a) ≤ p.length)
    (line : lineLength (p ++ a) = p.length → LineEnds b) :
    lineLength (p ++ b) = lineLength (p ++ a) := by
  by_cases feed : '\n' ∈ p
  · rw [lineLength, lineLength, currentLine_of_mem feed, currentLine_of_mem feed]
  · have whole : ∀ after, lineLength (p ++ after) = p.length + lineLength after := by
      intro after
      rw [lineLength, currentLine_append_of_not_mem feed, List.length_append]
      rfl
    rw [whole] at fits line
    rw [whole, whole]
    have none : lineLength a = 0 := by omega
    have ends : lineLength b = 0 := by
      rcases line (by omega) with rfl | ⟨rest, rfl⟩
      · rfl
      · simp [lineLength, currentLine]
    rw [none, ends]

end Text

namespace Lexeme

variable {cs tag : List Char} {close : Char} {escapes : Bool}

/-- A quoted text ends behind a closing mark. -/
theorem quotedEnd?_split (found : quotedEnd? close escapes n cs = some m) :
    ∃ inner after, cs = inner ++ close :: after ∧ m = n + inner.length + 1 := by
  fun_induction quotedEnd? close escapes n cs with
  | case1 => cases found
  | case2 => cases found
  | case3 n c _ x rest ih =>
    obtain ⟨inner, after, rfl, rfl⟩ := ih found
    refine ⟨c :: x :: inner, after, rfl, ?_⟩
    simp only [List.length_cons]
    omega
  | case4 n c _ closes =>
    obtain rfl : c = close := by simpa using closes
    cases found
    exact ⟨[], [], rfl, rfl⟩
  | case5 n c _ closes x rest _ ih =>
    obtain ⟨inner, after, rfl, rfl⟩ := ih found
    refine ⟨c :: x :: inner, after, rfl, ?_⟩
    simp only [List.length_cons]
    omega
  | case6 n c _ closes x rest =>
    obtain rfl : c = close := by simpa using closes
    cases found
    exact ⟨[], x :: rest, rfl, rfl⟩
  | case7 n c rest _ _ ih =>
    obtain ⟨inner, after, rfl, rfl⟩ := ih found
    refine ⟨c :: inner, after, rfl, ?_⟩
    simp only [List.length_cons]
    omega

theorem quotedEnd?_lt (found : quotedEnd? close escapes n cs = some m) : n < m := by
  obtain ⟨inner, after, -, rfl⟩ := quotedEnd?_split found
  omega

theorem quotedEnd?_le (found : quotedEnd? close escapes n cs = some m) : m ≤ n + cs.length := by
  obtain ⟨inner, after, rfl, rfl⟩ := quotedEnd?_split found
  simp only [List.length_append, List.length_cons]
  omega

/-- A quoted text is closed in the same place, unless it ends with the text and the ending brings
its closing mark once more. -/
theorem quotedEnd?_ending (found : quotedEnd? close escapes n (p ++ a) = some m)
    (fits : m ≤ n + p.length)
    (apart : m = n + p.length → b.head? = some close → a.head? = some close) :
    quotedEnd? close escapes n (p ++ b) = some m := by
  generalize split : p ++ a = cs at found
  fun_induction quotedEnd? close escapes n cs generalizing p with
  | case1 => cases found
  | case2 => cases found
  | case3 n c escape x rest ih =>
    have counted := quotedEnd?_lt found
    obtain ⟨q, rfl, tail⟩ := eq_cons_of_append split (by omega)
    rw [List.length_cons] at fits apart
    obtain ⟨r, rfl, tail'⟩ := eq_cons_of_append tail (by omega)
    rw [List.length_cons] at fits apart
    simp only [List.cons_append, quotedEnd?]
    rw [if_pos escape]
    exact ih (by omega) (fun whole => apart (by omega)) tail' found
  | case4 n c plain closes =>
    obtain rfl := Option.some.inj found
    obtain ⟨q, rfl, tail⟩ := eq_cons_of_append split (by omega)
    obtain ⟨rfl, rfl⟩ := List.append_eq_nil_iff.mp tail
    rw [List.cons_append, List.nil_append]
    unfold quotedEnd?
    rw [if_neg plain, if_pos closes]
    cases b with
    | nil => rfl
    | cons y more =>
      refine if_neg fun twice => ?_
      cases apart rfl (congrArg some (beq_iff_eq.mp twice))
  | case5 n c plain closes x rest again ih =>
    have counted := quotedEnd?_lt found
    obtain ⟨q, rfl, tail⟩ := eq_cons_of_append split (by omega)
    rw [List.length_cons] at fits apart
    obtain ⟨r, rfl, tail'⟩ := eq_cons_of_append tail (by omega)
    rw [List.length_cons] at fits apart
    simp only [List.cons_append, quotedEnd?]
    rw [if_neg plain, if_pos closes, if_pos again]
    exact ih (by omega) (fun whole => apart (by omega)) tail' found
  | case6 n c plain closes x rest once =>
    obtain rfl := Option.some.inj found
    obtain ⟨q, rfl, tail⟩ := eq_cons_of_append split (by omega)
    rw [List.cons_append]
    unfold quotedEnd?
    rw [if_neg plain, if_pos closes]
    cases q with
    | cons y q =>
      obtain ⟨rfl, -⟩ := List.cons.inj tail
      exact if_neg once
    | nil =>
      obtain rfl : a = x :: rest := tail
      cases b with
      | nil => rfl
      | cons y more =>
        refine if_neg fun twice => once ?_
        have same := apart rfl (congrArg some (beq_iff_eq.mp twice))
        exact beq_iff_eq.mpr (Option.some.inj same)
  | case7 n c rest plain inner ih =>
    have counted := quotedEnd?_lt found
    obtain ⟨q, rfl, tail⟩ := eq_cons_of_append split (by omega)
    rw [List.length_cons] at fits apart
    rw [List.cons_append]
    unfold quotedEnd?
    rw [if_neg plain, if_neg inner]
    exact ih (by omega) (fun whole => apart (by omega)) tail found

theorem dollarTag?_eq_some_iff :
    dollarTag? cs = some tag ↔
      (∃ more, cs = tag ++ '$' :: more) ∧ (∀ c ∈ tag, isTagChar c = true) ∧
        cs.head?.any Char.isDigit = false := by
  simp only [dollarTag?]
  constructor
  · intro found
    split at found
    · next opens =>
      obtain rfl := Option.some.inj found
      simp only [Bool.and_eq_true, beq_iff_eq, Bool.not_eq_true'] at opens
      obtain ⟨more, rest⟩ := List.head?_eq_some_iff.mp opens.1
      refine ⟨⟨more, ?_⟩, ?_, opens.2⟩
      · have begins := List.prefix_iff_eq_take.mp (List.takeWhile_prefix (l := cs) isTagChar)
        rw [← rest]
        conv => rhs; lhs; rw [begins]
        exact (List.take_append_drop _ cs).symm
      · intro c hc
        exact List.all_eq_true.mp List.all_takeWhile c hc
    · cases found
  · rintro ⟨⟨more, rfl⟩, chars, plain⟩
    have tag_eq : (tag ++ '$' :: more).takeWhile isTagChar = tag := by
      rw [List.takeWhile_append_of_pos chars]
      simp [show isTagChar '$' = false by decide]
    rw [tag_eq, List.drop_left, plain]
    rfl

theorem dollarTag?_ending (found : dollarTag? (p ++ a) = some tag)
    (fits : tag.length < p.length) : dollarTag? (p ++ b) = some tag := by
  obtain ⟨⟨more, split⟩, chars, plain⟩ := dollarTag?_eq_some_iff.mp found
  have inside : ∃ more, p = tag ++ '$' :: more := by
    rcases List.append_eq_append_iff.mp split with ⟨tail, rfl, rest⟩ | ⟨tail, rfl, rest⟩
    · rw [List.length_append] at fits
      omega
    · cases tail with
      | nil => simp at fits
      | cons y tail =>
        obtain ⟨rfl, -⟩ := List.cons.inj rest
        exact ⟨tail, rfl⟩
  obtain ⟨more, rfl⟩ := inside
  rw [dollarTag?_eq_some_iff]
  refine ⟨⟨more ++ b, by simp⟩, chars, ?_⟩
  cases tag with
  | nil => rfl
  | cons c tag => exact plain

theorem dollarEnd?_split (found : dollarEnd? tag cs = some m) :
    ∃ k, position? ('$' :: tag ++ ['$']) (cs.drop (tag.length + 1)) = some k ∧
      m = tag.length + 1 + k + ('$' :: tag ++ ['$']).length ∧ m ≤ cs.length := by
  obtain ⟨k, here, rfl⟩ := Option.map_eq_some_iff.mp found
  have fits := position?_le here
  simp only [List.length_append, List.length_cons, List.length_drop] at fits ⊢
  exact ⟨k, here, rfl, by omega⟩

theorem dollarEnd?_ending (found : dollarEnd? tag (p ++ a) = some n) (fits : n ≤ p.length) :
    tag.length < p.length ∧ dollarEnd? tag (p ++ b) = some n := by
  obtain ⟨k, here, rfl, -⟩ := dollarEnd?_split found
  simp only [List.length_append, List.length_cons, List.length_nil] at fits
  refine ⟨by omega, ?_⟩
  rw [List.drop_append_of_le_length (by omega)] at here
  rw [dollarEnd?, List.drop_append_of_le_length (by omega)]
  refine Option.map_eq_some_iff.mpr ⟨k, position?_ending here ?_, rfl⟩
  simp only [List.length_append, List.length_cons, List.length_nil, List.length_drop]
  omega

theorem commentEnd?_ending (found : commentEnd? (p ++ a) = some n) (fits : n ≤ p.length) :
    commentEnd? (p ++ b) = some n := by
  obtain ⟨k, here, rfl⟩ := Option.map_eq_some_iff.mp found
  exact Option.map_eq_some_iff.mpr ⟨k, position?_ending here fits, rfl⟩

end Lexeme

theorem Quote.extent_ending {q : Quote} (found : q.extent (p ++ a) = .closed n)
    (opens : q.opening ≤ p.length) (fits : n ≤ p.length)
    (apart : b.head? = some q.close → a.head? = some q.close) :
    q.extent (p ++ b) = .closed n := by
  rw [Quote.extent, List.drop_append_of_le_length opens] at found ⊢
  split at found
  · next m ends =>
    cases found
    have fits' : n ≤ q.opening + (p.drop q.opening).length := by
      rw [List.length_drop]
      omega
    rw [quotedEnd?_ending ends fits' fun _ => apart]
  · cases found

theorem dollarExtent_ending {tag : List Char} (found : dollarExtent tag (p ++ a) = .closed n)
    (fits : n ≤ p.length + 1) : tag.length < p.length ∧ dollarExtent tag (p ++ b) = .closed n := by
  rw [dollarExtent] at found ⊢
  split at found
  · next m ends =>
    cases found
    obtain ⟨long, same⟩ := dollarEnd?_ending (b := b) ends (by omega)
    rw [same]
    exact ⟨long, rfl⟩
  · cases found

namespace Dialect

variable {dialect : Dialect} {c : Char}

theorem comment?_eq_none_iff {cs : List Char} : dialect.comment? cs = none ↔
    ¬ ['-', '-'] <+: cs ∧ ¬ (dialect.hashComments = true ∧ cs.head? = some '#') ∧
      ¬ ['/', '*'] <+: cs := by
  have opens : (['-', '-'].isPrefixOf cs || (dialect.hashComments && cs.head? == some '#')) = true ↔
      ['-', '-'] <+: cs ∨ dialect.hashComments = true ∧ cs.head? = some '#' := by
    simp only [Bool.or_eq_true, Bool.and_eq_true, List.isPrefixOf_iff_prefix, beq_iff_eq]
  rw [comment?, ← and_assoc, ← not_or, ← opens, ← List.isPrefixOf_iff_prefix]
  split
  · next line => exact ⟨nofun, fun plain => absurd line plain.1⟩
  · next line =>
    split
    · next block => exact ⟨by split <;> nofun, fun plain => absurd block plain.2⟩
    · next block => exact ⟨fun _ => ⟨line, block⟩, fun _ => rfl⟩

theorem comment?_none_ending (nonempty : p ≠ [])
    (dash : p = ['-'] → b.head? = some '-' → a.head? = some '-')
    (star : p = ['/'] → b.head? = some '*' → a.head? = some '*')
    (plain : dialect.comment? (p ++ a) = none) : dialect.comment? (p ++ b) = none := by
  rw [comment?_eq_none_iff] at plain ⊢
  obtain ⟨dashes, hash, block⟩ := plain
  rw [head?_ending (a := a) nonempty]
  exact ⟨fun begins => dashes (pair_ending nonempty dash begins), hash,
    fun begins => block (pair_ending nonempty star begins)⟩

/-- A comment that ends in the text, or with it and the line. -/
theorem comment?_closed_ending (nonempty : p ≠ [])
    (found : dialect.comment? (p ++ a) = some (.closed n)) (fits : n ≤ p.length)
    (line : ['-', '-'] <+: p ++ a ∨ dialect.hashComments = true ∧ (p ++ a).head? = some '#' →
      n = lineLength (p ++ a) → n = p.length → LineEnds b) :
    dialect.comment? (p ++ b) = some (.closed n) := by
  rw [Dialect.comment?] at found ⊢
  rw [head?_ending (a := a) nonempty]
  split at found
  · next opens =>
    simp only [Bool.or_eq_true, Bool.and_eq_true, List.isPrefixOf_iff_prefix, beq_iff_eq] at opens
    cases found
    rw [lineLength_ending fits (line opens rfl), if_pos]
    simp only [Bool.or_eq_true, Bool.and_eq_true, List.isPrefixOf_iff_prefix, beq_iff_eq]
    refine opens.imp_left fun begins => prefix_ending begins ?_
    exact Nat.le_trans (length_le_lineLength (by decide) begins) fits
  · next opens =>
    simp only [Bool.or_eq_true, List.isPrefixOf_iff_prefix, not_or] at opens
    split at found
    · next block =>
      rw [List.isPrefixOf_iff_prefix] at block
      split at found
      · next m closed =>
        cases found
        have begins : ['/', '*'] <+: p ++ b := prefix_ending block (by simp; omega)
        have other : ¬ ['-', '-'] <+: p ++ b := by
          intro dashes
          have first := List.prefix_of_prefix_length_le begins dashes (Nat.le_refl 2)
          exact absurd first (by decide)
        have same : commentEnd? ((p ++ b).drop 2) = some m := by
          rw [List.drop_append_of_le_length (by omega)] at closed ⊢
          exact commentEnd?_ending closed (by rw [List.length_drop]; omega)
        rw [if_neg, if_pos (List.isPrefixOf_iff_prefix.mpr begins), same]
        simp only [Bool.or_eq_true, List.isPrefixOf_iff_prefix, not_or]
        exact ⟨other, opens.2⟩
      · cases found
    · cases found

/-- A token that is closed within the text is the same with both endings, if the same texts are
opened before both. -/
theorem token_ending {f : Char → Bool}
    (tags : dialect.dollarQuote? c (p ++ a) = none → dialect.dollarQuote? c (p ++ b) = none)
    (plain : dialect.quote? c (p ++ a) = none → dialect.quote? c (p ++ b) = none)
    (quotes : ∀ q, dialect.quote? c (p ++ a) = some q → q.opening ≤ p.length →
      dialect.quote? c (p ++ b) = some q ∧ (b.head? = some q.close → a.head? = some q.close))
    (fits : ∀ extent, dialect.token f c (p ++ a) = .text extent →
      ∃ n, extent = .closed n ∧ n ≤ p.length + 1) :
    dialect.token f c (p ++ b) = dialect.token f c (p ++ a) := by
  rw [token] at fits
  rw [token, token]
  cases tagged : dialect.dollarQuote? c (p ++ a) with
  | some tag =>
    obtain ⟨n, closed, short⟩ := fits (dollarExtent tag (p ++ a)) (by rw [tagged])
    obtain ⟨long, same⟩ := dollarExtent_ending (b := b) closed short
    have there : dialect.dollarQuote? c (p ++ b) = some tag := by
      rw [dollarQuote?] at tagged ⊢
      split at tagged
      · next opens => rw [if_pos opens, dollarTag?_ending tagged long]
      · cases tagged
    rw [there]
    simp only [same, closed]
  | none =>
    rw [tags tagged]
    simp only [tagged] at fits
    cases quoted : dialect.quote? c (p ++ a) with
    | none => rw [plain quoted]
    | some q =>
      obtain ⟨n, closed, short⟩ := fits (q.extent (c :: (p ++ a))) (by rw [quoted])
      have opens : q.opening < n := by
        rw [Quote.extent] at closed
        split at closed
        · next ends =>
          cases closed
          exact quotedEnd?_lt ends
        · cases closed
      obtain ⟨there, apart⟩ := quotes q quoted (by omega)
      have same : q.extent (c :: (p ++ b)) = .closed n :=
        Quote.extent_ending (p := c :: p) closed (by simp; omega) short apart
      rw [there]
      simp only [same, closed]

end Dialect

end SqlBoundary
