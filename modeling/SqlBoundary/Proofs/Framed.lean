import Mathlib.Data.List.TakeWhile
import SqlBoundary.Proofs.Alike
import SqlBoundary.Proofs.Solid

/-!
# What stands after a statement

The text of a statement ends before blanks and a delimiter, or with the script. If it is looked
at alone, a word in it is the same or longer, and a `BEGIN` starts a transaction or opens a block
as it did before, since the `END` of a block would have to be in the text.

A word is longer if the delimiter begins inside of it, with a digit, and ends behind the statement:
in the script it cuts that word short.
-/

namespace SqlBoundary

open Text

theorem startsAt_of_append {d : Delimiter} {cs : List Char} (after : List Char)
    (h : d.startsAt cs = true) : d.startsAt (cs ++ after) = true := by
  simp only [Delimiter.startsAt, Bool.and_eq_true, List.isPrefixOf_iff_prefix] at h ⊢
  exact ⟨h.1, h.2.trans (List.prefix_append cs after)⟩

theorem startsAt_alone {d : Delimiter} {cs after : List Char}
    (h : d.startsAt (cs ++ after) = false) :
    d.startsAt cs = false := by
  rw [Bool.eq_false_iff] at h ⊢
  exact fun starts => h (startsAt_of_append after starts)

theorem head?_of_startsAt {d : Delimiter} {c : Char} {cs : List Char}
    (h : d.startsAt (c :: cs) = true) : c ∈ d.text.toList.head? := by
  simp only [Delimiter.startsAt, Bool.and_eq_true, Bool.not_eq_true', List.isEmpty_eq_false_iff,
    List.isPrefixOf_iff_prefix] at h
  obtain ⟨x, rest, split⟩ := List.exists_cons_of_ne_nil h.1.2
  rw [split, List.cons_prefix_cons] at h
  rw [split, h.2.1]
  rfl

namespace Context

variable {ctx : Context} {p after : List Char}

theorem wordAhead_le (stops : ctx.wordAhead after = []) :
    (ctx.wordAhead (p ++ after)).length ≤ p.length := by
  induction p with
  | nil => rw [List.nil_append, stops]
  | cons c p ih =>
    rw [List.cons_append, wordAhead]
    split
    · exact Nat.succ_le_succ ih
    · exact Nat.zero_le _

/-- A word is not shorter without what comes after it. -/
theorem wordAhead_append_prefix (stops : ctx.wordAhead after = []) :
    ctx.wordAhead (p ++ after) <+: ctx.wordAhead p := by
  induction p with
  | nil =>
    rw [List.nil_append, stops]
    exact List.nil_prefix
  | cons c p ih =>
    rw [List.cons_append, wordAhead]
    split
    · next inside =>
      simp only [Bool.and_eq_true, Bool.not_eq_true'] at inside
      have alone : ctx.delimiter.startsAt (c :: p) = false := by
        rw [← Bool.not_eq_true]
        intro starts
        have longer := startsAt_of_append after starts
        rw [List.cons_append, inside.2] at longer
        cases longer
      rw [wordAhead, inside.1, alone]
      exact List.cons_prefix_cons.mpr ⟨rfl, ih⟩
    · exact List.nil_prefix

/-- If it is longer, then the delimiter begins where the shorter word ends. -/
theorem wordAhead_cut {cut v : List Char} (whole : ctx.wordAhead (p ++ after) = cut)
    (alone : ctx.wordAhead p = cut ++ v) (longer : v ≠ []) :
    ∃ x more, v = x :: more ∧ ctx.isWordChar x = true ∧ x ∈ ctx.delimiter.text.toList.head? := by
  induction p generalizing cut with
  | nil => exact absurd (List.append_eq_nil_iff.mp alone.symm).2 longer
  | cons c p ih =>
    rw [wordAhead] at alone
    split at alone
    · next inside =>
      simp only [Bool.and_eq_true] at inside
      rw [List.cons_append, wordAhead, inside.1] at whole
      cases cut with
      | nil =>
        rw [List.nil_append] at alone
        cases starts : ctx.delimiter.startsAt (c :: (p ++ after)) with
        | true => exact ⟨c, _, alone.symm, inside.1, head?_of_startsAt starts⟩
        | false => simp [starts] at whole
      | cons c' cut =>
        obtain ⟨rfl, rest⟩ := List.cons.inj alone
        split at whole
        · exact ih (List.cons.inj whole).2 rest
        · cases whole
    · exact absurd (List.append_eq_nil_iff.mp alone.symm).2 longer

/-- What the end of the text hides of the token ahead: nothing, or that there is a token at all,
or the rest of a word. -/
theorem tokenAhead?_alone (ctx : Context) (p after : List Char) :
    ctx.tokenAhead? (p ++ after) = ctx.tokenAhead? p ∨ (∀ c ∈ p, isBlank c = true) ∨
      ∃ blanks word x rest more, p = blanks ++ word ∧ (∀ c ∈ blanks, isBlank c = true) ∧
        after = x :: rest ∧ ctx.isWordChar x = true ∧
        ctx.tokenAhead? p = some (String.ofList (upper word)) ∧
        ctx.tokenAhead? (p ++ after) = some (String.ofList (upper (word ++ x :: more))) := by
  induction p with
  | nil =>
    refine Or.inr (Or.inl ?_)
    intro c mem
    cases mem
  | cons c p ih =>
    cases blank : isBlank c with
    | true =>
      rw [List.cons_append, tokenAhead?_of_blank ctx blank, tokenAhead?_of_blank ctx blank]
      rcases ih with same | blanks | ⟨blanks, word, x, rest, more, rfl, all, here⟩
      · exact Or.inl same
      · exact Or.inr (Or.inl (List.forall_mem_cons.mpr ⟨blank, blanks⟩))
      · exact Or.inr (Or.inr ⟨c :: blanks, word, x, rest, more, rfl,
          List.forall_mem_cons.mpr ⟨blank, all⟩, here⟩)
    | false =>
      rw [List.cons_append, tokenAhead?_of_solid ctx blank, tokenAhead?_of_solid ctx blank]
      split
      · rw [List.takeWhile_append]
        split
        · next whole =>
          have all : p.takeWhile ctx.isWordChar = p :=
            (List.takeWhile_prefix _).eq_of_length whole
          rw [all]
          cases next : after.takeWhile ctx.isWordChar with
          | nil => exact Or.inl (by rw [List.append_nil])
          | cons x more =>
            obtain ⟨rest, split⟩ := List.takeWhile_prefix (l := after) ctx.isWordChar
            rw [next] at split
            have word : ctx.isWordChar x = true := by
              have passes := List.all_takeWhile (l := after) (p := ctx.isWordChar)
              rw [next] at passes
              exact List.all_eq_true.mp passes x List.mem_cons_self
            exact Or.inr (Or.inr ⟨[], c :: p, x, more ++ rest, more, rfl, List.forall_mem_nil _,
              split.symm, word, rfl, rfl⟩)
        · exact Or.inl rfl
      · exact Or.inl rfl

end Context

/-- No word that makes a `BEGIN` start a transaction has both these letters of an `END`. -/
theorem transactionWords_plain {next : String} (mem : next ∈ BlockGrammar.transactionWords) :
    ¬ ('N' ∈ next.toList ∧ 'D' ∈ next.toList) ∧ ∀ c ∈ next.toList, c.isDigit = false := by
  revert next
  decide +kernel

theorem toUpper_of_isDigit {c : Char} (h : c.isDigit = true) : c.toUpper = c := by
  delta Char.toUpper
  rw [dif_neg]
  intro letter
  simp only [Char.isDigit, Bool.and_eq_true, decide_eq_true_eq] at h
  have low := UInt32.le_iff_toNat_le.mp letter.1
  have high := UInt32.le_iff_toNat_le.mp h.2
  exact absurd (Nat.le_trans low high) (by decide)

/-- The token after a word is no such word if its upper case has a digit in it. -/
theorem beginsTransaction_of_digit {word : List Char} {x : Char} (mem : x ∈ word)
    (digit : x.isDigit = true) :
    BlockGrammar.beginsTransaction (some (String.ofList (upper word))) = false := by
  simp only [BlockGrammar.beginsTransaction, List.contains_eq_mem, decide_eq_false_iff_not]
  intro listed
  have plain := (transactionWords_plain listed).2 x
  rw [String.toList_ofList] at plain
  rw [plain (List.mem_map.mpr ⟨x, mem, toUpper_of_isDigit digit⟩)] at digit
  cases digit

theorem upper_of_isBlank {c : Char} (h : isBlank c = true) : c.toUpper ≠ 'N' ∧ c.toUpper ≠ 'D' := by
  have apart : ∀ n ∈ blankCodes, (Char.ofNat n).toUpper ≠ 'N' ∧ (Char.ofNat n).toUpper ≠ 'D' := by
    decide
  have plain := apart _ (mem_blankCodes h)
  rw [Char.ofNat_toNat] at plain
  exact plain

/-- Blanks have neither of two letters of an `END`. -/
theorem mem_upper_of_blanks {blanks word : List Char} (blank : ∀ c ∈ blanks, isBlank c = true) :
    ('N' ∈ upper (blanks ++ word) ↔ 'N' ∈ upper word) ∧
      ('D' ∈ upper (blanks ++ word) ↔ 'D' ∈ upper word) := by
  have apart : 'N' ∉ upper blanks ∧ 'D' ∉ upper blanks := by
    constructor
    · intro mem
      obtain ⟨c, mem, same⟩ := List.mem_map.mp mem
      exact (upper_of_isBlank (blank c mem)).1 same
    · intro mem
      obtain ⟨c, mem, same⟩ := List.mem_map.mp mem
      exact (upper_of_isBlank (blank c mem)).2 same
  simp only [upper, List.map_append, List.mem_append] at apart ⊢
  simp [apart]

namespace Dialect

/-- The characters a word begins with in a statement of this dialect. -/
def startsWord (dialect : Dialect) (c : Char) : Bool :=
  isAlphabetic c || dialect.kind.admits c || c == '_'

def isWordChar (dialect : Dialect) (c : Char) : Bool := dialect.startsWord c || c.isDigit

theorem startsWord_eq (dialect : Dialect) {ctx : Context} (kind : ctx.kind = dialect.kind)
    (c : Char) :
    ctx.startsWord c = dialect.startsWord c := by
  rw [Context.startsWord, Context.isLetter, kind, startsWord]

theorem isWordChar_eq (dialect : Dialect) {ctx : Context} (kind : ctx.kind = dialect.kind)
    (c : Char) :
    ctx.isWordChar c = dialect.isWordChar c := by
  rw [Context.isWordChar, Context.isLetter, kind, isWordChar, startsWord]
  simp only [Bool.or_assoc, Bool.or_comm (c == '_')]

end Dialect

/-- The delimiter does not begin like a word. -/
def Delimiter.Wordless (d : Delimiter) (dialect : Dialect) : Prop :=
  ∀ c ∈ d.text.toList.head?, dialect.startsWord c = false

instance (d : Delimiter) (dialect : Dialect) : Decidable (d.Wordless dialect) :=
  inferInstanceAs (Decidable (∀ c ∈ d.text.toList.head?, dialect.startsWord c = false))

/-- Of the characters of a word, only a digit begins the delimiter. -/
theorem Delimiter.Wordless.digit {d : Delimiter} {dialect : Dialect} {ctx : Context} {c : Char}
    (h : d.Wordless dialect) (kind : ctx.kind = dialect.kind) (begins : c ∈ d.text.toList.head?)
    (word : ctx.isWordChar c = true) : c.isDigit = true := by
  have other : ctx.startsWord c = false := by
    rw [dialect.startsWord_eq kind]
    exact h c begins
  simp only [Context.startsWord, Bool.or_eq_false_iff] at other
  simpa [Context.isWordChar, other] using word

/-- Reading is not stuck before a delimiter that does not begin like a word. -/
theorem Session.not_stuck_of_wordless {s : Session} {draft : Draft} {dialect : Dialect}
    (kind : s.context.kind = dialect.kind)
    (plain : s.context.delimiter.aloneOnLine = false → s.context.delimiter.Wordless dialect) :
    ¬ s.Stuck draft := by
  intro stuck
  obtain ⟨c, rest, begins, starts⟩ := startsAt_of_stuck stuck
  have inline : s.context.delimiter.aloneOnLine = false := by
    simp only [Delimiter.startsAt, Bool.and_eq_true, Bool.not_eq_true'] at starts
    exact starts.1.1
  rw [dialect.startsWord_eq kind, plain inline c (head?_of_startsAt starts)] at begins
  cases begins

/-- A statement is followed by blanks and by its delimiter or the end of the script. -/
structure Framed (dialect : Dialect) (d : Delimiter) (blanks rest : List Char) : Prop where
  inline : d.aloneOnLine = false
  plain : d.Wordless dialect
  blank : ∀ c ∈ blanks, isBlank c = true
  closes : rest = [] ∨ d.startsAt rest = true

namespace Framed

variable {dialect : Dialect} {d : Delimiter} {blanks rest p : List Char} {ctx : Context}

theorem word_stops (h : Framed dialect d blanks rest) (delimiter : ctx.delimiter = d) :
    ctx.wordAhead (blanks ++ rest) = [] := by
  cases blanks with
  | cons c blanks =>
    have blank := h.blank c List.mem_cons_self
    rw [List.cons_append, Context.wordAhead, isWordChar_of_isBlank blank]
    rfl
  | nil =>
    rw [List.nil_append]
    rcases h.closes with rfl | starts
    · rfl
    · cases rest with
      | nil => rfl
      | cons c rest =>
        rw [Context.wordAhead, delimiter, starts]
        simp

/-- A `BEGIN` starts a transaction on its own as it does in the script. It opens a block in the
script only if an `END` follows in the text. -/
theorem transaction_eq (h : Framed dialect d blanks rest) (kind : ctx.kind = dialect.kind)
    (ends : BlockGrammar.beginsTransaction (ctx.tokenAhead? (p ++ (blanks ++ rest))) = false →
      'N' ∈ upper (p ++ blanks) ∧ 'D' ∈ upper (p ++ blanks)) :
    BlockGrammar.beginsTransaction (ctx.tokenAhead? p) =
      BlockGrammar.beginsTransaction (ctx.tokenAhead? (p ++ (blanks ++ rest))) := by
  rcases ctx.tokenAhead?_alone p (blanks ++ rest) with
    same | all | ⟨before, word, x, more, tail, rfl, all, split, letter, alone, whole⟩
  · rw [same]
  · have nothing : ctx.tokenAhead? p = none := by
      have trimmed : trimStart p = [] := by
        rw [trimStart, List.dropWhile_eq_nil_iff]
        exact all
      simp [Context.tokenAhead?, trimmed]
    cases next : BlockGrammar.beginsTransaction (ctx.tokenAhead? (p ++ (blanks ++ rest))) with
    | true => rw [nothing]; rfl
    | false =>
      have letters := (ends next).1
      rw [(mem_upper_of_blanks all).1] at letters
      have none : 'N' ∈ upper (blanks ++ []) ↔ 'N' ∈ upper [] := (mem_upper_of_blanks h.blank).1
      rw [List.append_nil] at none
      exact absurd (none.mp letters) (List.not_mem_nil)
  · have empty : blanks = [] := by
      cases blanks with
      | nil => rfl
      | cons c blanks =>
        obtain ⟨rfl, -⟩ := List.cons.inj split
        rw [isWordChar_of_isBlank (h.blank c List.mem_cons_self)] at letter
        cases letter
    subst empty
    rw [List.nil_append] at split
    have digit : x.isDigit = true := by
      rcases h.closes with rfl | starts
      · cases split
      · rw [split] at starts
        exact h.plain.digit kind (head?_of_startsAt starts) letter
    have open_ : BlockGrammar.beginsTransaction
        (some (String.ofList (upper (word ++ x :: tail)))) = false :=
      beginsTransaction_of_digit (by simp) digit
    rw [whole] at ends ⊢
    obtain ⟨letterN, letterD⟩ := ends open_
    rw [List.append_nil] at letterN letterD
    rw [(mem_upper_of_blanks all).1] at letterN
    rw [(mem_upper_of_blanks all).2] at letterD
    rw [alone, open_]
    simp only [BlockGrammar.beginsTransaction, List.contains_eq_mem, decide_eq_false_iff_not]
    intro listed
    have plain := (transactionWords_plain listed).1
    rw [String.toList_ofList] at plain
    exact plain ⟨letterN, letterD⟩

/-- The next word, and whether it is a `BEGIN` that starts a transaction. -/
theorem seesWord_eq (h : Framed dialect d blanks rest) (kind : ctx.kind = dialect.kind)
    (delimiter : ctx.delimiter = d)
    (word : ctx.wordAhead p = ctx.wordAhead (p ++ (blanks ++ rest)))
    (ends : ∀ spelled, ctx.seesWord (p ++ (blanks ++ rest)) = .word spelled false →
      String.ofList (upper spelled) = "BEGIN" →
        'N' ∈ upper (p.drop spelled.length ++ blanks) ∧
          'D' ∈ upper (p.drop spelled.length ++ blanks)) :
    ctx.seesWord p = ctx.seesWord (p ++ (blanks ++ rest)) := by
  have short := Context.wordAhead_le (p := p) (h.word_stops delimiter)
  simp only [Context.seesWord, word, Sight.word.injEq] at ends ⊢
  refine ⟨trivial, ?_⟩
  by_cases begin : String.ofList (upper (ctx.wordAhead (p ++ (blanks ++ rest)))) = "BEGIN"
  · rw [List.drop_append_of_le_length short] at ends ⊢
    rw [h.transaction_eq kind]
    intro opens
    exact ends _ ⟨rfl, by rw [opens, Bool.and_false]⟩ begin
  · have other : (String.ofList (upper (ctx.wordAhead (p ++ (blanks ++ rest)))) == "BEGIN") =
        false := beq_eq_false_iff_ne.mpr begin
    rw [other, Bool.false_and, Bool.false_and]

end Framed

/-- Blanks do not go on what a text without blanks begins with. -/
theorem prefix_of_blanks {pattern p blanks rest : List Char}
    (solid : ∀ c ∈ pattern, isBlank c = false)
    (blank : ∀ c ∈ blanks, isBlank c = true) (nonempty : blanks ≠ [])
    (begins : pattern <+: p ++ (blanks ++ rest)) : pattern <+: p := by
  rcases List.prefix_or_prefix_of_prefix begins (List.prefix_append p _) with inside | ⟨more, split⟩
  · exact inside
  · obtain ⟨x, blanks, rfl⟩ := List.exists_cons_of_ne_nil nonempty
    cases more with
    | nil => exact ⟨[], by rw [← split, List.append_nil, List.append_nil]⟩
    | cons y more =>
      rw [← split, List.prefix_append_right_inj, List.cons_append, List.cons_prefix_cons] at begins
      have here := solid y (by rw [← split]; simp)
      rw [begins.1, blank x List.mem_cons_self] at here
      cases here

end SqlBoundary
