import SqlBoundary.Proofs.Transactions
import SqlBoundary.Proofs.Twins

/-!
# Where tokens end

No token goes on with a blank or a semicolon. The last token of a text ends with the text where
such a character comes next or the script ends, and every token is the same with any other such
ending in its place. What may see the difference are the delimiter, and the looks ahead from some
words: a `BEGIN` looks at the next token, and others search for a keyword.
-/

namespace SqlBoundary

open Text Lexeme

namespace Dialect

variable {dialect : Dialect} {c : Char}

/-- No token of the dialect goes on with this character. -/
structure Halts (dialect : Dialect) (c : Char) : Prop where
  tag : isTagChar c = false
  word : dialect.isWordChar c = false
  mark : c ∉ ['\'', '$', '=', ':', '*']
  strings : c ∉ dialect.stringQuotes
  identifiers : ∀ pair ∈ dialect.identifierQuotes, pair.2 ≠ c

instance (dialect : Dialect) (c : Char) : Decidable (dialect.Halts c) :=
  decidable_of_iff
    (isTagChar c = false ∧ dialect.isWordChar c = false ∧ c ∉ ['\'', '$', '=', ':', '*'] ∧
      c ∉ dialect.stringQuotes ∧ ∀ pair ∈ dialect.identifierQuotes, pair.2 ≠ c)
    ⟨fun ⟨tag, word, mark, strings, identifiers⟩ => ⟨tag, word, mark, strings, identifiers⟩,
      fun h => ⟨h.tag, h.word, h.mark, h.strings, h.identifiers⟩⟩

theorem Halts.isDigit (h : dialect.Halts c) : c.isDigit = false :=
  (Bool.or_eq_false_iff.mp h.word).2

/-- The text begins with such a character, or is empty. -/
def Stops (dialect : Dialect) (after : List Char) : Prop := ∀ c ∈ after.head?, dialect.Halts c

theorem stops_nil (dialect : Dialect) : dialect.Stops [] := nofun

theorem stops_cons (h : dialect.Halts c) (rest : List Char) : dialect.Stops (c :: rest) := by
  rintro x ⟨⟩
  exact h

end Dialect

theorem Vendor.halts_of_blank (v : Vendor) {c : Char} (blank : isBlank c = true) :
    v.dialect.Halts c := by
  have plain : ∀ v ∈ Vendor.all, ∀ n ∈ blankCodes, v.dialect.Halts (.ofNat n) := by decide +kernel
  have known : v ∈ Vendor.all := by cases v <;> decide
  have here := plain v known _ (mem_blankCodes blank)
  rwa [Char.ofNat_toNat] at here

theorem Vendor.halts_semicolon (v : Vendor) : v.dialect.Halts ';' := by
  cases v <;> decide +kernel

theorem Context.tokenAhead?_blanks (ctx : Context) {blanks : List Char}
    (blank : ∀ c ∈ blanks, isBlank c = true) : ctx.tokenAhead? blanks = none := by
  have nothing : trimStart blanks = [] := by
    rw [trimStart, List.dropWhile_eq_nil_iff]
    exact blank
  rw [Context.tokenAhead?, nothing]

theorem Context.tokenAhead?_semicolon (ctx : Context) {blanks : List Char}
    (blank : ∀ c ∈ blanks, isBlank c = true) (rest : List Char) :
    ctx.tokenAhead? (blanks ++ ';' :: rest) = some ";" := by
  have next : trimStart (blanks ++ ';' :: rest) = ';' :: rest := by
    have semicolon : isBlank ';' = false := by decide
    rw [trimStart, List.dropWhile_append_of_pos blank]
    exact List.dropWhile_cons_of_neg (by simp [semicolon])
  have sign : ctx.startsWord ';' = false := by
    have letter : isAlphabetic ';' = false := by decide
    have extra : ctx.kind.admits ';' = false := by cases ctx.kind <;> decide
    simp [Context.startsWord, Context.isLetter, letter, extra]
  simp only [Context.tokenAhead?, next, sign]
  rfl

namespace Dialect.Stops

variable {p a b tag : List Char} {n : Nat} {c : Char} {dialect : Dialect}

theorem head?_ne (h : dialect.Stops a) (goes : ¬ dialect.Halts c) : a.head? ≠ some c :=
  fun head => goes (h c head)

theorem goes_of_mark (mark : c ∈ ['\'', '$', '=', ':', '*']) : ¬ dialect.Halts c :=
  fun h => h.mark mark

/-- The next character is the same one in both, if tokens go on with it. -/
theorem head?_iff (ha : dialect.Stops a) (hb : dialect.Stops b) (goes : ¬ dialect.Halts c) :
    (p ++ b).head? = some c ↔ (p ++ a).head? = some c := by
  cases p with
  | nil => simp [ha.head?_ne goes, hb.head?_ne goes]
  | cons x p => exact Iff.rfl

theorem takeWhile (h : dialect.Stops a) {f : Char → Bool}
    (stops : ∀ c, dialect.Halts c → f c = false) : (p ++ a).takeWhile f = p.takeWhile f := by
  induction p with
  | nil =>
    cases a with
    | nil => rfl
    | cons x rest => simp [stops x (h x rfl)]
  | cons c p ih =>
    rw [List.cons_append, List.takeWhile_cons, List.takeWhile_cons, ih]

theorem quote? (ha : dialect.Stops a) (hb : dialect.Stops b) :
    dialect.quote? c (p ++ b) = dialect.quote? c (p ++ a) := by
  have head : ((p ++ b).head? == some '\'') = ((p ++ a).head? == some '\'') := by
    rw [Bool.eq_iff_iff, beq_iff_eq, beq_iff_eq]
    exact head?_iff ha hb (goes_of_mark (by decide))
  rw [Dialect.quote?, Dialect.quote?, head]

/-- No quoted text is closed by a character that tokens do not go on with. -/
theorem close_ne {q : Quote} {rest : List Char} (h : dialect.Stops b)
    (found : dialect.quote? c rest = some q) : b.head? ≠ some q.close := by
  refine h.head?_ne ?_
  rw [Dialect.quote?] at found
  split at found
  · cases found
    exact goes_of_mark (by decide)
  · split at found
    · next string =>
      cases found
      exact fun halts => halts.strings (List.contains_iff_mem.mp string)
    · obtain ⟨close, closes, rfl⟩ := Option.map_eq_some_iff.mp found
      obtain ⟨pair, here, rfl⟩ := Option.map_eq_some_iff.mp closes
      exact fun halts => halts.identifiers pair (List.mem_of_find?_eq_some here) rfl

theorem dollarTag? (ha : dialect.Stops a) (hb : dialect.Stops b) :
    Lexeme.dollarTag? (p ++ b) = Lexeme.dollarTag? (p ++ a) := by
  have stops : ∀ c, dialect.Halts c → isTagChar c = false := fun c halts => halts.tag
  have short : (p.takeWhile isTagChar).length ≤ p.length := (List.takeWhile_prefix _).length_le
  have digit : (p ++ b).head?.any Char.isDigit = (p ++ a).head?.any Char.isDigit := by
    cases p with
    | nil =>
      have plain : ∀ {cs}, dialect.Stops cs → cs.head?.any Char.isDigit = false := by
        intro cs h
        cases cs with
        | nil => rfl
        | cons x rest => exact (h x rfl).isDigit
      exact (plain hb).trans (plain ha).symm
    | cons z p => rfl
  have dollar : ∀ p : List Char,
      ((p ++ b).head? == some '$') = ((p ++ a).head? == some '$') := by
    intro p
    rw [Bool.eq_iff_iff, beq_iff_eq, beq_iff_eq]
    exact head?_iff ha hb (goes_of_mark (by decide))
  simp only [Lexeme.dollarTag?, ha.takeWhile stops, hb.takeWhile stops, digit,
    List.drop_append_of_le_length short, dollar]

theorem comment?_none (hb : dialect.Stops b) (nonempty : p ≠ [])
    (dash : p = ['-'] → b.head? ≠ some '-') (plain : dialect.comment? (p ++ a) = none) :
    dialect.comment? (p ++ b) = none := by
  refine Dialect.comment?_none_ending nonempty (fun alone next => ?_) (fun _ star => ?_) plain
  · exact absurd next (dash alone)
  · exact absurd star (hb.head?_ne (goes_of_mark (by decide)))

/-- A comment that ends in the text, or with it and the line. -/
theorem comment?_closed (nonempty : p ≠ []) (found : dialect.comment? (p ++ a) = some (.closed n))
    (fits : n ≤ p.length) (line : dialect.OpensLine (p ++ a) → n = p.length → LineEnds b) :
    dialect.comment? (p ++ b) = some (.closed n) :=
  Dialect.comment?_closed_ending nonempty found fits fun opens _ => line opens

/-- A token that is closed within the text is the same with both endings. -/
theorem token {f : Char → Bool} (ha : dialect.Stops a) (hb : dialect.Stops b)
    (fits : ∀ extent, dialect.token f c (p ++ a) = .text extent →
      ∃ n, extent = .closed n ∧ n ≤ p.length + 1) :
    dialect.token f c (p ++ b) = dialect.token f c (p ++ a) := by
  have tag : dialect.dollarQuote? c (p ++ b) = dialect.dollarQuote? c (p ++ a) := by
    rw [Dialect.dollarQuote?, Dialect.dollarQuote?, dollarTag? ha hb]
  refine Dialect.token_ending tag.trans (quote? ha hb).trans (fun q quoted _ => ?_) fits
  exact ⟨(quote? ha hb).trans quoted, fun close => absurd close (hb.close_ne quoted)⟩

/-- What a symbol says of the next clause. -/
theorem afterSymbol (ha : dialect.Stops a) (hb : dialect.Stops b) (d : Draft) :
    d.afterSymbol c (p ++ b) = d.afterSymbol c (p ++ a) := by
  have same : ∀ m ∈ ['=', ':'], ((p ++ b).head? != some m) = ((p ++ a).head? != some m) := by
    intro m mem
    have mark : m ∈ ['\'', '$', '=', ':', '*'] := by
      revert m
      decide
    rw [Bool.eq_iff_iff, bne_iff_ne, bne_iff_ne, ne_eq, ne_eq, head?_iff ha hb (goes_of_mark mark)]
  simp only [Draft.afterSymbol, same '=' (by decide), same ':' (by decide)]

variable {ctx : Context} {w : List Char}

theorem wordAhead_nil (h : dialect.Stops a) (kind : ctx.kind = dialect.kind) :
    ctx.wordAhead a = [] := by
  cases a with
  | nil => rfl
  | cons c rest =>
    rw [Context.wordAhead, dialect.isWordChar_eq kind, (h c rfl).word]
    rfl

/-- The word is the same with both endings, if the delimiter is found at the same places from its
begin to its end. -/
theorem wordAhead (hb : dialect.Stops b) (kind : ctx.kind = dialect.kind)
    (word : ctx.wordAhead (p ++ (w ++ a)) = p)
    (same : ∀ r, r ≠ [] → w <:+ r → r <:+ p ++ w →
      ctx.delimiter.startsAt (r ++ b) = ctx.delimiter.startsAt (r ++ a)) :
    ctx.wordAhead (p ++ (w ++ b)) = p := by
  induction p with
  | nil =>
    cases w with
    | nil => exact hb.wordAhead_nil kind
    | cons c w =>
      have starts := same (c :: w) (List.cons_ne_nil c w) List.suffix_rfl List.suffix_rfl
      rw [List.cons_append] at starts
      rw [List.nil_append, List.cons_append, Context.wordAhead] at word ⊢
      rw [starts]
      split at word
      · cases word
      · next stops => exact if_neg stops
  | cons c p ih =>
    have starts := same (c :: p ++ w) (List.cons_ne_nil c _) (List.suffix_append (c :: p) w)
      List.suffix_rfl
    rw [List.append_assoc, List.append_assoc, List.cons_append, List.cons_append] at starts
    rw [List.cons_append, Context.wordAhead] at word ⊢
    rw [starts]
    split at word
    · next goes =>
      rw [if_pos goes, ih (List.cons.inj word).2]
      intro r nonempty within reaches
      exact same r nonempty within (reaches.trans (List.suffix_cons c (p ++ w)))
    · cases word

/-- A token after the word is the same in the text alone. -/
theorem tokenAhead?_alone (h : dialect.Stops a) (kind : ctx.kind = dialect.kind)
    (solid : ∃ c ∈ p, isBlank c = false) : ctx.tokenAhead? (p ++ a) = ctx.tokenAhead? p := by
  obtain ⟨c, mem, solid⟩ := solid
  rcases ctx.tokenAhead?_alone p a with same | blank | ⟨_, _, x, rest, _, -, -, rfl, word, -⟩
  · exact same
  · rw [blank c mem] at solid
    cases solid
  · rw [dialect.isWordChar_eq kind, (h x rfl).word] at word
    cases word

theorem tokenAhead? (ha : dialect.Stops a) (hb : dialect.Stops b) (kind : ctx.kind = dialect.kind)
    (solid : ∃ c ∈ p, isBlank c = false) : ctx.tokenAhead? (p ++ b) = ctx.tokenAhead? (p ++ a) := by
  rw [ha.tokenAhead?_alone kind solid, hb.tokenAhead?_alone kind solid]

end Dialect.Stops

namespace Session

variable {u : Session} {x : Draft} {c : Char} {r w a b : List Char}

/-- With `b` in place of `a` behind the text `w`, the looks from the word before that find the
same. -/
structure Foresees (u : Session) (x : Draft) (w a b : List Char) : Prop where
  transaction : u.wordText = "BEGIN" →
    BlockGrammar.beginsTransaction (u.context.tokenAhead? (w ++ b)) =
      BlockGrammar.beginsTransaction (u.context.tokenAhead? (w ++ a))
  search : ∀ keywords, u.dialect.blocks.sought? (u.scanned x) u.context = some keywords →
    nextKeyword? (w ++ b) keywords = nextKeyword? (w ++ a) keywords

/-- The word ahead, and what it leads to, is the same with both endings. Its line is, too, or is no
directive with either. -/
theorem seesWord_of_stops (there : u.dialect.Stops b) (kind : u.context.kind = u.dialect.kind)
    (ahead : u.cursor.ahead = u.word ++ (w ++ a))
    (starts : ∀ r, r ≠ [] → w <:+ r → r <:+ u.word ++ w →
      u.context.delimiter.startsAt (r ++ b) = u.context.delimiter.startsAt (r ++ a))
    (line : currentLine (w ++ b) = currentLine (w ++ a) ∨ (u.mayDirect x = true →
      u.directive? = .ok none ∧ (u.facing (u.word ++ (w ++ b))).directive? = .ok none))
    (looks : u.Foresees x w a b) : u.SeesWord x (u.word ++ (w ++ b)) := by
  have word : (u.facing (u.word ++ (w ++ b))).word = u.word :=
    there.wordAhead kind (ahead ▸ rfl) starts
  have sameLine : currentLine (w ++ b) = currentLine (w ++ a) →
      currentLine (u.word ++ (w ++ b)) = currentLine (u.word ++ (w ++ a)) := by
    intro same
    have oneLine : '\n' ∉ u.word := u.context.lineFeed_not_mem_wordAhead u.cursor.ahead
    rw [currentLine_append_of_not_mem oneLine, currentLine_append_of_not_mem oneLine, same]
  refine ⟨word, ?_, ?_, ?_⟩
  · intro may
    rcases line with same | plain
    · rw [directive?, directive?, ahead, ← sameLine same]
      rfl
    · exact (plain may).2.trans (plain may).1.symm
  · intro d may found
    rcases line with same | plain
    · rw [lineLength, lineLength, ahead, sameLine same]
    · rw [(plain may).1] at found
      cases found
  · intro _
    have here' : u.afterWord.cursor.ahead = w ++ a := by
      rw [afterWord, skip_cursor, Cursor.skip_ahead, ahead, List.drop_left]
    have there' : (u.facing (u.word ++ (w ++ b))).afterWord.cursor.ahead = w ++ b := by
      rw [afterWord, word, skip_cursor, Cursor.skip_ahead]
      exact List.drop_left
    have scanned : (u.facing (u.word ++ (w ++ b))).scanned x =
        { u.scanned x with ahead := w ++ b, next := u.context.tokenAhead? (w ++ b) } := by
      simp only [Session.scanned, asWord, wordText, word, there']
      rfl
    have seen : (u.scanned x).ahead = w ++ a ∧
        (u.scanned x).next = u.context.tokenAhead? (w ++ a) := by
      rw [← here']
      exact ⟨rfl, rfl⟩
    rw [scanned]
    refine BlockGrammar.opens_of_sought ?_ ?_
    · rw [seen.2]
      exact looks.transaction
    · rw [seen.1]
      exact looks.search

/-- So is any other token that is closed within the text. -/
theorem seesToken_of_stops (here : u.dialect.Stops a) (there : u.dialect.Stops b)
    (ahead : u.cursor.ahead = c :: (r ++ a))
    (text : ∀ extent, u.dialect.token u.context.startsWord c (r ++ a) = .text extent →
      ∃ n, extent = .closed n ∧ n ≤ r.length + 1)
    (word : u.dialect.token u.context.startsWord c (r ++ a) = .word →
      u.SeesWord x (c :: (r ++ b))) : u.SeesToken x c (c :: (r ++ b)) := by
  have tail : u.cursor.ahead.tail = r ++ a := by rw [ahead]; rfl
  refine ⟨?_, fun _ => ?_, ?_⟩
  · rw [tail]
    exact Dialect.Stops.token here there text
  · rw [tail]
    exact Dialect.Stops.afterSymbol here there x
  · rw [tail]
    exact word

end Session

end SqlBoundary
