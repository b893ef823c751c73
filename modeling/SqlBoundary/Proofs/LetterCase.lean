import SqlBoundary.Dialect.Token
import SqlBoundary.Dialect.Vendor
import SqlBoundary.Proofs.Text

/-!
# Texts in other letters

What reading goes by is the same in a text and in that text in lower case. Only the letters from
`A` to `Z` have another case here. They are letters in either case, of one byte each, and none of
them is blank, opens or closes a quoted text, or belongs to a comment mark.
-/

namespace SqlBoundary

open Text Lexeme

theorem toLower_of_le {c : Char} (high : 128 ≤ c.toNat) : c.toLower = c := by
  delta Char.toLower
  apply dif_neg
  rintro ⟨-, below⟩
  have last : c.toNat ≤ 90 := UInt32.le_iff_toNat_le.mp below
  omega

/-- The letters with another case. -/
def upperLetters : List Char :=
  ['A', 'B', 'C', 'D', 'E', 'F', 'G', 'H', 'I', 'J', 'K', 'L', 'M', 'N', 'O', 'P', 'Q', 'R', 'S',
    'T', 'U', 'V', 'W', 'X', 'Y', 'Z']

theorem toLower_of_not_mem {c : Char} (other : c ∉ upperLetters) : c.toLower = c := by
  by_cases small : c.toNat < 128
  · have all : ∀ n < 128, Char.ofNat n ∉ upperLetters → (Char.ofNat n).toLower = Char.ofNat n := by
      decide +kernel
    have here := all c.toNat small
    rw [Char.ofNat_toNat] at here
    exact here other
  · exact toLower_of_le (by omega)

/-- What holds of the letters and their lower case holds of all characters. -/
theorem toLower_keeps {α : Type} (f : Char → α)
    (letters : ∀ c ∈ upperLetters, f c.toLower = f c) (c : Char) : f c.toLower = f c := by
  by_cases letter : c ∈ upperLetters
  · exact letters c letter
  · rw [toLower_of_not_mem letter]

theorem isAlpha_toLower (c : Char) : c.toLower.isAlpha = c.isAlpha :=
  toLower_keeps Char.isAlpha (by decide) c

theorem utf8Size_toLower (c : Char) : c.toLower.utf8Size = c.utf8Size :=
  toLower_keeps Char.utf8Size (by decide) c

theorem toLower_of_not_isAlpha {c : Char} (plain : c.isAlpha = false) : c.toLower = c := by
  refine toLower_of_not_mem fun mem => ?_
  have all : ∀ c ∈ upperLetters, c.isAlpha = true := by decide
  rw [all c mem] at plain
  cases plain

/-- A character that is no letter is told apart from the others in either case. -/
theorem toLower_beq {m : Char} (plain : m.isAlpha = false) (c : Char) :
    (c.toLower == m) = (c == m) := by
  rw [Bool.eq_iff_iff, beq_iff_eq, beq_iff_eq]
  constructor
  · rintro rfl
    rw [isAlpha_toLower] at plain
    exact (toLower_of_not_isAlpha plain).symm
  · rintro rfl
    exact toLower_of_not_isAlpha plain

namespace Text

theorem isBlank_toLower (c : Char) : isBlank c.toLower = isBlank c :=
  toLower_keeps isBlank (by decide) c

theorem isAlphabetic_toLower (c : Char) : isAlphabetic c.toLower = isAlphabetic c :=
  toLower_keeps isAlphabetic (by decide) c

theorem isAlphabetic_of_isAlpha {c : Char} (letter : c.isAlpha = true) :
    isAlphabetic c = true := by
  have small : c.toNat < 128 := by
    apply Decidable.byContradiction
    intro high
    delta Char.isAlpha Char.isUpper Char.isLower at letter
    simp only [Bool.or_eq_true, Bool.and_eq_true, decide_eq_true_eq, ge_iff_le] at letter
    rcases letter with ⟨-, below⟩ | ⟨-, below⟩
    · have last : c.toNat ≤ 90 := UInt32.le_iff_toNat_le.mp below
      omega
    · have last : c.toNat ≤ 122 := UInt32.le_iff_toNat_le.mp below
      omega
  have all : ∀ n < 128, (Char.ofNat n).isAlpha = true → isAlphabetic (Char.ofNat n) = true := by
    decide +kernel
  have here := all c.toNat small
  rw [Char.ofNat_toNat] at here
  exact here letter

theorem lower_lower (cs : List Char) : lower (lower cs) = lower cs := by
  rw [lower, lower, List.map_map]
  apply List.map_congr_left
  intro c _
  exact toLower_keeps Char.toLower (by decide) c

theorem upper_lower (cs : List Char) : upper (lower cs) = upper cs := by
  rw [upper, lower, upper, List.map_map]
  apply List.map_congr_left
  intro c _
  exact toLower_keeps Char.toUpper (by decide) c

theorem sameIgnoringCase_lower (a b : List Char) :
    sameIgnoringCase (lower a) b = sameIgnoringCase a b := by
  rw [sameIgnoringCase, sameIgnoringCase, lower_lower]

theorem length_lower (cs : List Char) : (lower cs).length = cs.length := List.length_map _

theorem byteSize_lower (cs : List Char) : byteSize (lower cs) = byteSize cs := by
  induction cs with
  | nil => rfl
  | cons c rest ih =>
    change c.toLower.utf8Size + byteSize (lower rest) = _
    rw [utf8Size_toLower, ih, byteSize_cons]

theorem drop_lower (n : Nat) (cs : List Char) : (lower cs).drop n = lower (cs.drop n) :=
  List.map_drop.symm

theorem takeWhile_lower {f : Char → Bool} (same : ∀ c, f c.toLower = f c) (cs : List Char) :
    (lower cs).takeWhile f = lower (cs.takeWhile f) := by
  rw [lower, List.takeWhile_map]
  congr 2
  funext c
  exact same c

theorem dropWhile_lower {f : Char → Bool} (same : ∀ c, f c.toLower = f c) (cs : List Char) :
    (lower cs).dropWhile f = lower (cs.dropWhile f) := by
  rw [lower, List.dropWhile_map]
  congr 2
  funext c
  exact same c

theorem trimStart_lower (cs : List Char) : trimStart (lower cs) = lower (trimStart cs) :=
  dropWhile_lower isBlank_toLower cs

theorem trimEnd_lower (cs : List Char) : trimEnd (lower cs) = lower (trimEnd cs) := by
  rw [trimEnd, lower, ← List.map_reverse]
  change ((lower cs.reverse).dropWhile isBlank).reverse = _
  rw [dropWhile_lower isBlank_toLower, lower, ← List.map_reverse]
  rfl

theorem currentLine_lower (cs : List Char) : currentLine (lower cs) = lower (currentLine cs) := by
  apply takeWhile_lower
  intro c
  have feed : (c.toLower == '\n') = (c == '\n') := toLower_beq (by decide) c
  rw [bne, bne, feed]

theorem lineLength_lower (cs : List Char) : lineLength (lower cs) = lineLength cs := by
  rw [lineLength, currentLine_lower, length_lower, lineLength]

theorem head?_lower {m : Char} (plain : m.isAlpha = false) (cs : List Char) :
    ((lower cs).head? == some m) = (cs.head? == some m) := by
  cases cs with
  | nil => rfl
  | cons c rest => exact toLower_beq plain c

theorem isPrefixOf_lower {pattern : List Char} (plain : ∀ m ∈ pattern, m.isAlpha = false)
    (cs : List Char) : pattern.isPrefixOf (lower cs) = pattern.isPrefixOf cs := by
  induction pattern generalizing cs with
  | nil => simp
  | cons m pattern ih =>
    cases cs with
    | nil => rfl
    | cons c rest =>
      have first : (m == c.toLower) = (m == c) := by
        rw [BEq.comm, toLower_beq (plain m List.mem_cons_self), BEq.comm]
      have later := ih (fun x mem => plain x (List.mem_cons_of_mem m mem)) rest
      change (m == c.toLower && pattern.isPrefixOf (lower rest)) = _
      rw [first, later]
      rfl

theorem position?_lower {pattern : List Char} (plain : ∀ m ∈ pattern, m.isAlpha = false)
    (cs : List Char) : position? pattern (lower cs) = position? pattern cs := by
  have counted : ∀ n, positionFrom? pattern n (lower cs) = positionFrom? pattern n cs := by
    induction cs with
    | nil => exact fun _ => rfl
    | cons c rest ih =>
      intro n
      have here := isPrefixOf_lower plain (c :: rest)
      change positionFrom? pattern n (c.toLower :: lower rest) = _
      change pattern.isPrefixOf (c.toLower :: lower rest) = _ at here
      rw [positionFrom?, positionFrom?, here, ih]
  exact counted 0

end Text

namespace Lexeme

theorem quotedEnd?_lower {close : Char} (plain : close.isAlpha = false) (escapes : Bool) (n : Nat)
    (cs : List Char) : quotedEnd? close escapes n (lower cs) = quotedEnd? close escapes n cs := by
  have mark := toLower_beq plain
  have slash := toLower_beq (m := '\\') (by decide)
  fun_induction quotedEnd? close escapes n cs with
  | case1 => rfl
  | case2 n c escape => simp [lower, quotedEnd?, slash, escape]
  | case3 n c escape x rest ih =>
    simp only [lower, List.map_cons, quotedEnd?, slash, escape, if_true]
    exact ih
  | case4 n c other closes => simp [lower, quotedEnd?, slash, mark, other, closes]
  | case5 n c other closes x rest again ih =>
    simp only [lower, List.map_cons, quotedEnd?, slash, mark, other, closes, again, if_true,
      Bool.false_eq_true, if_false]
    exact ih
  | case6 n c other closes x rest once =>
    simp [lower, quotedEnd?, slash, mark, other, closes, once]
  | case7 n c rest other inner ih =>
    cases rest with
    | nil => simp [lower, quotedEnd?, slash, mark, other, inner]
    | cons x rest =>
      simp only [lower, List.map_cons] at ih ⊢
      rw [quotedEnd?, slash, mark, if_neg other, if_neg inner]
      exact ih

theorem commentEnd?_lower (body : List Char) : commentEnd? (lower body) = commentEnd? body := by
  rw [commentEnd?, commentEnd?, position?_lower (by decide)]

theorem looseQuotedEnd_lower {close : Char} (plain : close.isAlpha = false) (n : Nat)
    (cs : List Char) : looseQuotedEnd close n (lower cs) = looseQuotedEnd close n cs := by
  have mark := toLower_beq plain
  have slash := toLower_beq (m := '\\') (by decide)
  fun_induction looseQuotedEnd close n cs with
  | case1 => rfl
  | case2 n c escape => simp [lower, looseQuotedEnd, slash, escape]
  | case3 n c escape x rest ih =>
    simp only [lower, List.map_cons, looseQuotedEnd, slash, escape, if_true]
    exact ih
  | case4 n c rest other closes =>
    simp only [lower, List.map_cons]
    unfold looseQuotedEnd
    rw [slash, mark, if_neg other, if_pos closes]
  | case5 n c rest other inner ih =>
    cases rest with
    | nil => simp [lower, looseQuotedEnd, slash, mark, other, inner]
    | cons x rest =>
      simp only [lower, List.map_cons] at ih ⊢
      rw [looseQuotedEnd, slash, mark, if_neg other, if_neg inner]
      exact ih

theorem looseCommentEnd_lower (body : List Char) :
    looseCommentEnd (lower body) = looseCommentEnd body := by
  rw [looseCommentEnd, looseCommentEnd, position?_lower (by decide), length_lower]

theorem isQuote_toLower (c : Char) : isQuote c.toLower = isQuote c :=
  toLower_keeps isQuote (by decide) c

theorem isAlpha_of_isQuote {c : Char} (quote : isQuote c = true) : c.isAlpha = false := by
  have marks : c = '\'' ∨ c = '"' ∨ c = '\x60' := by simpa [isQuote, or_assoc] using quote
  rcases marks with rfl | rfl | rfl <;> decide

theorem startsName_toLower (c : Char) : startsName c.toLower = startsName c :=
  toLower_keeps startsName (by decide) c

theorem isNameChar_toLower (c : Char) : isNameChar c.toLower = isNameChar c :=
  toLower_keeps isNameChar (by decide) c

/-- The search finds the same keyword in either case. -/
theorem seekKeyword_lower (keywords : List String) (skip depth : Nat) (cs : List Char) :
    seekKeyword keywords skip depth (lower cs) = seekKeyword keywords skip depth cs := by
  induction cs generalizing skip depth with
  | nil => rfl
  | cons c rest ih =>
    change seekKeyword keywords skip depth (c.toLower :: lower rest) = _
    cases skip with
    | succ skip => exact ih skip depth
    | zero =>
      have mark : ∀ m : Char, m.isAlpha = false → (c.toLower == m) = (c == m) :=
        fun m plain => toLower_beq plain c
      have quoted : isQuote c = true →
          looseQuotedEnd c.toLower 0 (lower rest) = looseQuotedEnd c 0 rest := by
        intro quote
        have plain := isAlpha_of_isQuote quote
        rw [toLower_of_not_isAlpha plain, looseQuotedEnd_lower plain]
      have name := takeWhile_lower isNameChar_toLower rest
      have spelled : ∀ k : List Char,
          sameIgnoringCase (c.toLower :: lower (rest.takeWhile isNameChar)) k =
            sameIgnoringCase (c :: rest.takeWhile isNameChar) k :=
        fun k => sameIgnoringCase_lower (c :: rest.takeWhile isNameChar) k
      have comment : looseCommentEnd (lower rest).tail = looseCommentEnd rest.tail := by
        rw [← List.drop_one, drop_lower, looseCommentEnd_lower, List.drop_one]
      unfold seekKeyword
      simp only [mark '(' (by decide), mark ')' (by decide), mark ';' (by decide),
        mark ',' (by decide), mark '-' (by decide), mark '/' (by decide),
        head?_lower (m := '-') (by decide), head?_lower (m := '*') (by decide),
        isQuote_toLower, startsName_toLower, lineLength_lower, comment, name, spelled,
        length_lower, ih]
      split
      · rfl
      split
      · rfl
      split
      · rfl
      split
      · next quote => rw [quoted quote]
      · rfl

theorem nextKeyword?_lower (ahead : List Char) (keywords : List String) :
    nextKeyword? (lower ahead) keywords = nextKeyword? ahead keywords :=
  seekKeyword_lower keywords 0 0 ahead

end Lexeme

/-- Whether it has letters or not, the delimiter is found in either case. -/
def Delimiter.Caseless (d : Delimiter) : Prop :=
  d.aloneOnLine = false → ∀ m ∈ d.text.toList, m.isAlpha = false

namespace Delimiter

variable {d : Delimiter}

theorem Caseless.startsAt_lower (caseless : d.Caseless) (ahead : List Char) :
    d.startsAt (lower ahead) = d.startsAt ahead := by
  rw [startsAt, startsAt]
  cases alone : d.aloneOnLine with
  | true => rfl
  | false => rw [isPrefixOf_lower (caseless alone)]

theorem fillsLine_lower (d : Delimiter) (ahead : List Char) :
    d.fillsLine (lower ahead) = d.fillsLine ahead := by
  rw [fillsLine, currentLine_lower, trimEnd_lower, sameIgnoringCase_lower, fillsLine]

end Delimiter

namespace Context

variable {ctx : Context}

theorem admits_isAlpha (kind : StatementKind) {c : Char} (letter : c.isAlpha = true) :
    kind.admits c = false := by
  rw [Bool.eq_false_iff]
  intro extra
  have plain : ∀ kind ∈ StatementKind.all, ∀ m ∈ kind.extraLetters, m.isAlpha = false := by
    decide
  have known : kind ∈ StatementKind.all := by cases kind <;> decide
  rw [plain kind known c (List.contains_iff_mem.mp extra)] at letter
  cases letter

/-- A letter is one in either case, and no other character has another case. -/
theorem isLetter_toLower (ctx : Context) (c : Char) : ctx.isLetter c.toLower = ctx.isLetter c := by
  rw [isLetter, isLetter, isAlphabetic_toLower]
  cases letter : c.isAlpha with
  | true =>
    rw [admits_isAlpha ctx.kind letter, admits_isAlpha ctx.kind (isAlpha_toLower c ▸ letter)]
  | false => rw [toLower_of_not_isAlpha letter]

theorem startsWord_toLower (ctx : Context) (c : Char) :
    ctx.startsWord c.toLower = ctx.startsWord c := by
  rw [startsWord, startsWord, isLetter_toLower, toLower_beq (by decide)]

theorem isWordChar_toLower (ctx : Context) (c : Char) :
    ctx.isWordChar c.toLower = ctx.isWordChar c := by
  have digit : c.toLower.isDigit = c.isDigit := toLower_keeps Char.isDigit (by decide) c
  rw [isWordChar, isWordChar, isLetter_toLower, digit, toLower_beq (by decide)]

/-- What begins no word is no letter. -/
theorem isAlpha_of_startsWord {c : Char} (other : ctx.startsWord c = false) :
    c.isAlpha = false := by
  rw [Bool.eq_false_iff]
  intro letter
  rw [startsWord, isLetter, isAlphabetic_of_isAlpha letter] at other
  cases other

theorem wordAhead_lower (caseless : ctx.delimiter.Caseless) (cs : List Char) :
    ctx.wordAhead (lower cs) = lower (ctx.wordAhead cs) := by
  induction cs with
  | nil => rfl
  | cons c rest ih =>
    have cut := caseless.startsAt_lower (c :: rest)
    change ctx.delimiter.startsAt (c.toLower :: lower rest) = _ at cut
    change ctx.wordAhead (c.toLower :: lower rest) = _
    rw [wordAhead, wordAhead, isWordChar_toLower, cut, ih]
    split <;> rfl

theorem tokenAhead?_lower (ctx : Context) (ahead : List Char) :
    ctx.tokenAhead? (lower ahead) = ctx.tokenAhead? ahead := by
  rw [tokenAhead?, tokenAhead?, trimStart_lower]
  cases trimStart ahead with
  | nil => rfl
  | cons c rest =>
    have word := takeWhile_lower (isWordChar_toLower ctx) rest
    have spelled := upper_lower (c :: rest.takeWhile ctx.isWordChar)
    change upper (c.toLower :: lower (rest.takeWhile ctx.isWordChar)) = _ at spelled
    change (if ctx.startsWord c.toLower then
        some (String.ofList (upper (c.toLower :: (lower rest).takeWhile ctx.isWordChar)))
      else some (String.singleton c.toLower)) =
        if ctx.startsWord c then some (String.ofList (upper (c :: rest.takeWhile ctx.isWordChar)))
        else some (String.singleton c)
    rw [startsWord_toLower, word, spelled]
    cases starts : ctx.startsWord c with
    | true => rfl
    | false =>
      rw [toLower_of_not_isAlpha (isAlpha_of_startsWord starts)]

end Context

/-- No letter quotes anything in the dialect, and no text is read up to a mark with letters. -/
structure Dialect.Caseless (dialect : Dialect) : Prop where
  strings : ∀ m ∈ dialect.stringQuotes, m.isAlpha = false
  identifiers : ∀ pair ∈ dialect.identifierQuotes, pair.1.isAlpha = false ∧ pair.2.isAlpha = false
  dollars : dialect.dollarQuotes = false
  directives : dialect.delimiterDirective = false

theorem Vendor.caseless {v : Vendor} (vendor : v = .generic ∨ v = .oracle ∨ v = .sqlserver) :
    v.dialect.Caseless := by
  rcases vendor with rfl | rfl | rfl <;> exact ⟨by decide, by decide, rfl, rfl⟩

namespace Dialect

variable {dialect : Dialect}

theorem comment?_lower (dialect : Dialect) (ahead : List Char) :
    dialect.comment? (lower ahead) = dialect.comment? ahead := by
  rw [comment?, comment?, isPrefixOf_lower (by decide), isPrefixOf_lower (by decide),
    head?_lower (by decide), lineLength_lower, drop_lower, commentEnd?_lower, length_lower]

theorem Caseless.quote?_lower (caseless : dialect.Caseless) (c : Char) (rest : List Char) :
    dialect.quote? c.toLower (lower rest) = dialect.quote? c rest := by
  have prefixed : (c.toLower == 'E' || c.toLower == 'e') = (c == 'E' || c == 'e') :=
    toLower_keeps (fun c => c == 'E' || c == 'e') (by decide) c
  rw [quote?, quote?, Bool.and_assoc, prefixed, head?_lower (by decide), ← Bool.and_assoc]
  cases letter : c.isAlpha with
  | false => rw [toLower_of_not_isAlpha letter]
  | true =>
    have string : ∀ x : Char, x.isAlpha = true → dialect.stringQuotes.contains x = false := by
      intro x alpha
      rw [Bool.eq_false_iff]
      intro mem
      rw [caseless.strings x (List.contains_iff_mem.mp mem)] at alpha
      cases alpha
    have identifier : ∀ x : Char, x.isAlpha = true → dialect.identifierClose? x = none := by
      intro x alpha
      rw [identifierClose?, Option.map_eq_none_iff, List.find?_eq_none]
      intro pair mem same
      rw [← beq_iff_eq.mp same, (caseless.identifiers pair mem).1] at alpha
      cases alpha
    have lowered := (isAlpha_toLower c).trans letter
    rw [string c letter, string _ lowered, identifier c letter, identifier _ lowered]
    rfl

/-- The closing mark of a quoted text is no letter. -/
theorem Caseless.close (caseless : dialect.Caseless) {c : Char} {rest : List Char} {q : Quote}
    (found : dialect.quote? c rest = some q) : q.close.isAlpha = false := by
  rw [quote?] at found
  split at found
  · cases found
    decide
  · split at found
    · next opens =>
      cases found
      exact caseless.strings c (List.contains_iff_mem.mp opens)
    · obtain ⟨close, known, rfl⟩ := Option.map_eq_some_iff.mp found
      rw [identifierClose?] at known
      obtain ⟨pair, here, rfl⟩ := Option.map_eq_some_iff.mp known
      exact (caseless.identifiers pair (List.mem_of_find?_eq_some here)).2

theorem extent_lower {q : Quote} (plain : q.close.isAlpha = false) (ahead : List Char) :
    q.extent (lower ahead) = q.extent ahead := by
  rw [Quote.extent, Quote.extent, drop_lower, quotedEnd?_lower plain, length_lower]

/-- The token ahead is the same in either case, but for the case of a symbol. -/
theorem Caseless.token_lower (caseless : dialect.Caseless) {startsWord : Char → Bool}
    (same : ∀ c, startsWord c.toLower = startsWord c)
    (letter : ∀ c, startsWord c = false → c.isAlpha = false) (c : Char) (rest : List Char) :
    dialect.token startsWord c.toLower (lower rest) = dialect.token startsWord c rest := by
  have untagged : ∀ c rest, dialect.dollarQuote? c rest = none := by
    intro c rest
    rw [dollarQuote?, caseless.dollars]
    rfl
  rw [token, token, untagged, untagged, caseless.quote?_lower, same]
  cases quoted : dialect.quote? c rest with
  | some q => exact congrArg Token.text (extent_lower (caseless.close quoted) (c :: rest))
  | none =>
    cases starts : startsWord c with
    | true => rfl
    | false =>
      rw [toLower_of_not_isAlpha (letter c starts)]

end Dialect

end SqlBoundary
