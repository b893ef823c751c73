import SqlBoundary.Proofs.Endings

/-!
# Text that ends with a line feed

What is read from a text that ends with a line feed does not depend on what comes after it.
No word, pattern or mark reaches across the line feed, so it is enough that the text read is
not empty, or that what was looked for has been found in it.
-/

namespace SqlBoundary

open Text Lexeme

namespace Text

/-- The last character is a line feed. -/
def EndsLine (cs : List Char) : Prop := ∃ init, cs = init ++ ['\n']

variable {cs : List Char} {c : Char} (after : List Char)

theorem EndsLine.ne_nil (h : EndsLine cs) : cs ≠ [] := by
  obtain ⟨init, rfl⟩ := h
  simp

theorem EndsLine.tail (h : EndsLine (c :: cs)) (other : c ≠ '\n') : EndsLine cs := by
  obtain ⟨init, split⟩ := h
  cases init with
  | nil => exact absurd (List.cons.inj split).1 other
  | cons x init => exact ⟨init, (List.cons.inj split).2⟩

theorem EndsLine.suffix (h : EndsLine cs) {rest : List Char} (reaches : rest <:+ cs) :
    rest = [] ∨ EndsLine rest := by
  obtain ⟨init, rfl⟩ := h
  obtain ⟨front, split⟩ := reaches
  rcases List.eq_nil_or_concat rest with empty | ⟨rest, x, rfl⟩
  · exact Or.inl empty
  · rw [List.concat_eq_append, ← List.append_assoc] at split
    obtain ⟨-, last⟩ := List.append_inj' split rfl
    exact Or.inr ⟨rest, by rw [List.concat_eq_append, last]⟩

/-- What is left after a front without a line feed still has the last one. -/
theorem EndsLine.rest (h : EndsLine cs) {front : List Char} (begins : front <+: cs)
    (oneLine : '\n' ∉ front) : EndsLine (cs.drop front.length) := by
  rcases h.suffix (List.drop_suffix front.length cs) with empty | ends
  · obtain ⟨init, rfl⟩ := h
    have whole := begins.eq_of_length_le (List.drop_eq_nil_iff.mp empty)
    exact absurd (by simp [whole]) oneLine
  · exact ends

theorem not_mem_takeWhile {p : Char → Bool} (stops : p c = false) (cs : List Char) :
    c ∉ cs.takeWhile p := by
  intro mem
  have passes := List.all_eq_true.mp List.all_takeWhile c mem
  rw [stops] at passes
  cases passes

theorem takeWhile_append_line (h : EndsLine cs) (p : Char → Bool) (stops : p '\n' = false) :
    (cs ++ after).takeWhile p = cs.takeWhile p := by
  obtain ⟨init, rfl⟩ := h
  induction init with
  | nil => simp [stops]
  | cons x init ih =>
    simp only [List.cons_append, List.takeWhile_cons]
    rw [ih]

theorem currentLine_append (h : EndsLine cs) : currentLine (cs ++ after) = currentLine cs :=
  takeWhile_append_line after h _ (by decide)

theorem lineLength_append (h : EndsLine cs) : lineLength (cs ++ after) = lineLength cs := by
  rw [lineLength, lineLength, currentLine_append after h]

theorem head?_append_line (h : EndsLine cs) : (cs ++ after).head? = cs.head? := by
  obtain ⟨x, rest, rfl⟩ := List.exists_cons_of_ne_nil h.ne_nil
  rfl

theorem isPrefixOf_append_line (h : EndsLine cs) {pattern : List Char}
    (oneLine : '\n' ∉ pattern) : pattern.isPrefixOf (cs ++ after) = pattern.isPrefixOf cs := by
  rw [Bool.eq_iff_iff, List.isPrefixOf_iff_prefix, List.isPrefixOf_iff_prefix]
  constructor
  · intro reaches
    rcases List.prefix_or_prefix_of_prefix reaches (List.prefix_append cs after) with
      inside | beyond
    · exact inside
    · obtain ⟨init, rfl⟩ := h
      obtain ⟨rest, split⟩ := beyond
      exact absurd (by simp [← split]) oneLine
  · intro inside
    exact inside.trans (List.prefix_append cs after)

/-- An occurrence is the first one whatever comes after it. -/
theorem position?_append {pattern : List Char} {n : Nat} (h : position? pattern cs = some n) :
    position? pattern (cs ++ after) = some n := by
  refine position?_ending (a := []) ?_ (position?_le h)
  rwa [List.append_nil]

end Text

namespace Lexeme

variable {cs : List Char} {n m : Nat} (after : List Char)

theorem quotedEnd?_append {close : Char} {escapes : Bool} (h : cs = [] ∨ EndsLine cs)
    (other : close ≠ '\n') (found : quotedEnd? close escapes n cs = some m) :
    quotedEnd? close escapes n (cs ++ after) = some m := by
  have found' : quotedEnd? close escapes n (cs ++ []) = some m := by rwa [List.append_nil]
  refine quotedEnd?_ending found' (quotedEnd?_le found) fun whole => ?_
  obtain ⟨inner, rest, rfl, rfl⟩ := quotedEnd?_split found
  simp only [List.length_append, List.length_cons] at whole
  obtain rfl : rest = [] := List.eq_nil_of_length_eq_zero (by omega)
  rcases h with empty | ⟨init, split⟩
  · simp at empty
  · obtain ⟨-, same⟩ := List.append_inj' split rfl
    exact absurd (List.cons.inj same).1 other

theorem isTagChar_lineFeed : isTagChar '\n' = false := by decide

theorem dollarTag?_append (h : EndsLine cs) : dollarTag? (cs ++ after) = dollarTag? cs := by
  have tag : (cs ++ after).takeWhile isTagChar = cs.takeWhile isTagChar :=
    takeWhile_append_line after h isTagChar isTagChar_lineFeed
  have short : (cs.takeWhile isTagChar).length ≤ cs.length :=
    (List.takeWhile_prefix isTagChar).length_le
  have more : EndsLine (cs.drop (cs.takeWhile isTagChar).length) :=
    h.rest (List.takeWhile_prefix isTagChar) (not_mem_takeWhile isTagChar_lineFeed cs)
  simp only [dollarTag?]
  rw [tag, List.drop_append_of_le_length short, head?_append_line after more,
    head?_append_line after h]

theorem dollarEnd?_append {tag : List Char} (found : dollarEnd? tag cs = some m) :
    dollarEnd? tag (cs ++ after) = some m := by
  obtain ⟨k, here, rfl, fits⟩ := dollarEnd?_split found
  rw [dollarEnd?, List.drop_append_of_le_length (by omega)]
  exact Option.map_eq_some_iff.mpr ⟨k, position?_append after here, rfl⟩

theorem commentEnd?_append (found : commentEnd? cs = some m) :
    commentEnd? (cs ++ after) = some m := by
  obtain ⟨k, here, rfl⟩ := Option.map_eq_some_iff.mp found
  exact Option.map_eq_some_iff.mpr ⟨k, position?_append after here, rfl⟩

theorem commentEnd?_le (found : commentEnd? cs = some m) : m ≤ cs.length := by
  obtain ⟨k, here, rfl⟩ := Option.map_eq_some_iff.mp found
  exact position?_le here

end Lexeme

theorem lineLength_le (cs : List Char) : lineLength cs ≤ cs.length :=
  (List.takeWhile_prefix _).length_le

namespace Delimiter

variable {d : Delimiter} {cs : List Char} (after : List Char)

theorem startsAt_append (h : EndsLine cs) (oneLine : '\n' ∉ d.text.toList) :
    d.startsAt (cs ++ after) = d.startsAt cs := by
  simp only [startsAt, isPrefixOf_append_line after h oneLine]

theorem fillsLine_append (h : EndsLine cs) : d.fillsLine (cs ++ after) = d.fillsLine cs := by
  simp only [fillsLine, currentLine_append after h]

end Delimiter

namespace Context

variable {ctx : Context} {cs : List Char} (after : List Char)

theorem isWordChar_lineFeed (ctx : Context) : ctx.isWordChar '\n' = false := by
  have letter : isAlphabetic '\n' = false := by decide
  have extra : ctx.kind.admits '\n' = false := by
    cases ctx.kind <;> decide
  simp [isWordChar, isLetter, letter, extra]

theorem wordAhead_append (h : EndsLine cs) (oneLine : '\n' ∉ ctx.delimiter.text.toList) :
    ctx.wordAhead (cs ++ after) = ctx.wordAhead cs := by
  induction cs with
  | nil => exact absurd rfl h.ne_nil
  | cons c cs ih =>
    have starts := Delimiter.startsAt_append after h oneLine
    rw [List.cons_append] at starts ⊢
    by_cases feed : c = '\n'
    · rw [wordAhead, wordAhead, feed, isWordChar_lineFeed]
      rfl
    · rw [wordAhead, wordAhead, starts, ih (h.tail feed)]

theorem wordAhead_prefix (ctx : Context) (cs : List Char) : ctx.wordAhead cs <+: cs := by
  induction cs with
  | nil => exact List.prefix_rfl
  | cons c cs ih =>
    rw [wordAhead]
    split
    · exact List.cons_prefix_cons.mpr ⟨rfl, ih⟩
    · exact List.nil_prefix

theorem isWordChar_of_mem_wordAhead {c : Char} (mem : c ∈ ctx.wordAhead cs) :
    ctx.isWordChar c = true := by
  induction cs with
  | nil => cases mem
  | cons x cs ih =>
    rw [wordAhead] at mem
    split at mem
    · next more =>
      rcases List.mem_cons.mp mem with rfl | mem
      · exact (Bool.and_eq_true _ _ ▸ more).1
      · exact ih mem
    · cases mem

theorem lineFeed_not_mem_wordAhead (ctx : Context) (cs : List Char) :
    '\n' ∉ ctx.wordAhead cs := by
  intro mem
  have word := isWordChar_of_mem_wordAhead mem
  rw [isWordChar_lineFeed] at word
  cases word

theorem tokenAhead?_of_blank (ctx : Context) {c : Char} (blank : isBlank c = true)
    (rest : List Char) : ctx.tokenAhead? (c :: rest) = ctx.tokenAhead? rest := by
  rw [tokenAhead?, tokenAhead?, trimStart, List.dropWhile_cons_of_pos blank]
  rfl

theorem tokenAhead?_of_solid (ctx : Context) {c : Char} (solid : isBlank c = false)
    (rest : List Char) : ctx.tokenAhead? (c :: rest) =
      if ctx.startsWord c then some (String.ofList (upper (c :: rest.takeWhile ctx.isWordChar)))
      else some (String.singleton c) := by
  rw [tokenAhead?, trimStart, List.dropWhile_cons_of_neg (Bool.eq_false_iff.mp solid)]

/-- A token ahead is seen whole if there is any. -/
theorem tokenAhead?_append (h : cs = [] ∨ EndsLine cs) (solid : ∃ c ∈ cs, isBlank c = false) :
    ctx.tokenAhead? (cs ++ after) = ctx.tokenAhead? cs := by
  induction cs with
  | nil =>
    obtain ⟨c, mem, -⟩ := solid
    cases mem
  | cons c cs ih =>
    have ends : EndsLine (c :: cs) := by
      rcases h with empty | ends
      · cases empty
      · exact ends
    cases blank : isBlank c with
    | true =>
      have later : ∃ x ∈ cs, isBlank x = false := by
        obtain ⟨x, mem, nonblank⟩ := solid
        rcases List.mem_cons.mp mem with rfl | mem
        · rw [blank] at nonblank
          cases nonblank
        · exact ⟨x, mem, nonblank⟩
      rw [List.cons_append, tokenAhead?_of_blank ctx blank, tokenAhead?_of_blank ctx blank]
      exact ih (ends.suffix (List.suffix_cons c cs)) later
    | false =>
      have word := takeWhile_append_line after (ends.tail (ne_lineFeed_of_solid blank))
        ctx.isWordChar (isWordChar_lineFeed ctx)
      rw [List.cons_append, tokenAhead?_of_solid ctx blank, tokenAhead?_of_solid ctx blank, word]

end Context

namespace Dialect

variable {dialect : Dialect} {c : Char} {cs rest : List Char} {n : Nat} (after : List Char)

theorem comment?_append (h : EndsLine cs)
    (closed : ∀ construct passed, dialect.comment? cs ≠ some (.unclosed construct passed)) :
    dialect.comment? (cs ++ after) = dialect.comment? cs := by
  have opens : ['/', '*'].isPrefixOf (cs ++ after) = ['/', '*'].isPrefixOf cs :=
    isPrefixOf_append_line after h (by decide)
  rw [comment?] at closed ⊢
  rw [comment?, isPrefixOf_append_line after h (by decide), head?_append_line after h,
    lineLength_append after h, opens]
  split
  · rfl
  · next plain =>
    rw [if_neg plain] at closed
    split
    · next block =>
      rw [if_pos block] at closed
      have long : 2 ≤ cs.length := (List.isPrefixOf_iff_prefix.mp block).length_le
      rw [List.drop_append_of_le_length long]
      cases found : commentEnd? (cs.drop 2) with
      | some n => rw [commentEnd?_append after found]
      | none =>
        rw [found] at closed
        exact absurd rfl (closed .blockComment cs.length)
    · rfl

theorem comment?_le (found : dialect.comment? cs = some (.closed n)) : n ≤ cs.length := by
  rw [comment?] at found
  split at found
  · cases found
    exact lineLength_le cs
  · split at found
    · next block =>
      have long : 2 ≤ cs.length := (List.isPrefixOf_iff_prefix.mp block).length_le
      split at found
      · next m closed =>
        cases found
        have := commentEnd?_le closed
        rw [List.length_drop] at this
        omega
      · cases found
    · cases found

theorem quote?_append (h : EndsLine rest) :
    dialect.quote? c (rest ++ after) = dialect.quote? c rest := by
  simp only [quote?, head?_append_line after h]

/-- The opening mark is there to be read, and the closing one is known to the dialect. -/
theorem quote?_eq_some {q : Quote} (found : dialect.quote? c rest = some q) :
    q.opening ≤ (c :: rest).length ∧
      (q.close = '\'' ∨ q.close = c ∨ ∃ pair ∈ dialect.identifierQuotes, pair.2 = q.close) := by
  rw [quote?] at found
  split at found
  · next escape =>
    cases found
    simp only [Bool.and_eq_true, beq_iff_eq] at escape
    obtain ⟨more, rfl⟩ := List.head?_eq_some_iff.mp escape.2
    exact ⟨by simp, Or.inl rfl⟩
  · split at found
    · cases found
      exact ⟨by simp, Or.inr (Or.inl rfl)⟩
    · obtain ⟨close, closes, rfl⟩ := Option.map_eq_some_iff.mp found
      obtain ⟨pair, open_, rfl⟩ := Option.map_eq_some_iff.mp closes
      exact ⟨by simp, Or.inr (Or.inr ⟨pair, List.mem_of_find?_eq_some open_, rfl⟩)⟩

theorem quoteExtent_append {q : Quote} (h : EndsLine cs) (short : q.opening ≤ cs.length)
    (other : q.close ≠ '\n')
    (closed : ∀ construct passed, q.extent cs ≠ .unclosed construct passed) :
    q.extent (cs ++ after) = q.extent cs := by
  rw [Quote.extent] at closed ⊢
  rw [Quote.extent, List.drop_append_of_le_length short]
  cases found : quotedEnd? q.close q.escapes q.opening (cs.drop q.opening) with
  | some n => rw [quotedEnd?_append after (h.suffix (List.drop_suffix _ cs)) other found]
  | none =>
    rw [found] at closed
    exact absurd rfl (closed q.construct cs.length)

theorem dollarExtent_append {tag : List Char}
    (closed : ∀ construct passed, dollarExtent tag rest ≠ .unclosed construct passed) :
    dollarExtent tag (rest ++ after) = dollarExtent tag rest := by
  rw [dollarExtent] at closed ⊢
  rw [dollarExtent]
  cases found : dollarEnd? tag rest with
  | some n => rw [dollarEnd?_append after found]
  | none =>
    rw [found] at closed
    exact absurd rfl (closed .dollarQuotedString 0)

theorem token_append {p : Char → Bool} (h : EndsLine (c :: rest)) (solid : isBlank c = false)
    (closers : ∀ pair ∈ dialect.identifierQuotes, pair.2 ≠ '\n')
    (closed : ∀ construct passed, dialect.token p c rest ≠ .text (.unclosed construct passed)) :
    dialect.token p c (rest ++ after) = dialect.token p c rest := by
  have other := ne_lineFeed_of_solid solid
  have ends := h.tail other
  have dollar : dialect.dollarQuote? c (rest ++ after) = dialect.dollarQuote? c rest := by
    simp only [dollarQuote?, dollarTag?_append after ends]
  rw [token] at closed ⊢
  rw [token, dollar, quote?_append after ends]
  cases tagged : dialect.dollarQuote? c rest with
  | some tag =>
    simp only [tagged] at closed ⊢
    rw [dollarExtent_append after]
    intro construct passed same
    exact closed construct passed (by rw [same])
  | none =>
    simp only [tagged] at closed ⊢
    cases quoted : dialect.quote? c rest with
    | some q =>
      simp only [quoted] at closed ⊢
      obtain ⟨short, mark⟩ := quote?_eq_some quoted
      have close : q.close ≠ '\n' := by
        rcases mark with mark | mark | ⟨pair, mem, mark⟩
        · rw [mark]
          decide
        · rw [mark]
          exact other
        · rw [← mark]
          exact closers pair mem
      rw [← List.cons_append, quoteExtent_append after h short close]
      intro construct passed same
      exact closed construct passed (by rw [same])
    | none => rfl

theorem token_le {p : Char → Bool} (found : dialect.token p c rest = .text (.closed n)) :
    n ≤ (c :: rest).length := by
  rw [token] at found
  split at found
  · next tag _ =>
    simp only [Token.text.injEq, dollarExtent] at found
    split at found
    · next m closed =>
      cases found
      obtain ⟨_, -, -, fits⟩ := dollarEnd?_split closed
      exact Nat.succ_le_succ fits
    · cases found
  · split at found
    · next q quoted =>
      simp only [Token.text.injEq, Quote.extent] at found
      split at found
      · next m closed =>
        cases found
        have fits := quotedEnd?_le closed
        have short := (quote?_eq_some quoted).1
        rw [List.length_drop] at fits
        omega
      · cases found
    · split at found <;> cases found

end Dialect

namespace BlockGrammar

/-- The keywords that are searched for after the word. -/
def sought? (grammar : BlockGrammar) (w : Word) (ctx : Context) : Option (List String) :=
  match grammar with
  | common => none
  | mysql =>
    if w.text = "IF" ∧ ctx.blocks ≠ [] ∧ w.clauseStart = true ∧ w.followsEnd = false then
      some ["THEN", "WHEN", "ELSE", "END"]
    else none
  | oracle =>
    if (w.text = "PROCEDURE" ∨ w.text = "FUNCTION") ∧
        declarationBlocks.contains ctx.innermost = true then
      some ["IS", "AS"]
    else none

/-- What comes after a word only matters at a `BEGIN`, and where a keyword is searched for. -/
theorem opens_of_sought {grammar : BlockGrammar} {w : Word} {ctx : Context} {ahead : List Char}
    {next : Option String}
    (transaction : w.text = "BEGIN" → beginsTransaction next = beginsTransaction w.next)
    (search : ∀ keywords, grammar.sought? w ctx = some keywords →
      nextKeyword? ahead keywords = nextKeyword? w.ahead keywords) :
    grammar.opens { w with ahead, next } ctx = grammar.opens w ctx := by
  have common : opensCommon { w with ahead, next } = opensCommon w := by
    simp only [opensCommon]
    split
    · next text => rw [transaction text]
    · rfl
    · rfl
  cases grammar with
  | common => simp only [opens, common]
  | mysql =>
    have control : opensControlFlow { w with ahead, next } ctx = opensControlFlow w ctx := by
      by_cases clause : ctx.blocks ≠ [] ∧ w.clauseStart = true ∧ w.followsEnd = false
      · simp only [opensControlFlow, Word.followsEnd]
        split
        · next text => rw [search _ (if_pos ⟨text, clause⟩)]
        all_goals rfl
      · have outside : (ctx.blockDepth != 0 && w.clauseStart && !w.followsEnd) = false := by
          rw [Bool.eq_false_iff]
          intro inside
          simp only [Bool.and_eq_true, bne_iff_ne, Bool.not_eq_true', Context.blockDepth, ne_eq,
            List.length_eq_zero_iff] at inside
          exact clause ⟨inside.1.1, inside.1.2, inside.2⟩
        simp only [opensControlFlow, Word.followsEnd] at outside ⊢
        rw [outside, Bool.false_and, Bool.false_and]
    simp only [opens, common, control]
  | oracle =>
    have unit : opensUnit { w with ahead, next } ctx = opensUnit w ctx := by
      cases declares : declarationBlocks.contains ctx.innermost with
      | false => simp only [opensUnit, Word.followsEnd, declares, Bool.false_and]
      | true =>
        simp only [opensUnit, Word.followsEnd]
        split
        case h_5 text => rw [search _ (if_pos ⟨Or.inl text, declares⟩)]
        case h_6 text => rw [search _ (if_pos ⟨Or.inr text, declares⟩)]
        all_goals rfl
    simp only [opens, common, unit]

/-- Only at an `IF`, and in the units of Oracle, it matters what comes after the word. -/
theorem opens_ahead {grammar : BlockGrammar} {w : Word} (ctx : Context) (ahead : List Char)
    (h : grammar = .common ∨ grammar = .mysql ∧ w.text ≠ "IF") :
    grammar.opens { w with ahead } ctx = grammar.opens w ctx := by
  refine opens_of_sought (fun _ => rfl) ?_
  intro keywords sought
  rcases h with rfl | ⟨rfl, other⟩
  · cases sought
  · rw [sought?, if_neg (fun same => other same.1)] at sought
    cases sought

end BlockGrammar

end SqlBoundary
