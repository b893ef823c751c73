import SqlBoundary.Proofs.Append
import SqlBoundary.Proofs.Filler
import SqlBoundary.Proofs.Progress

/-!
# Two continuations of a text

What is read from a text, and ends within it, does not depend on how the script goes on, as
long as no look at the next character can tell. Two continuations meet this where the second
is empty, or where both begin with one and the same mark. It is not said the other way: what
is left open before an empty continuation may go on in another one.
-/

namespace SqlBoundary

open Text Lexeme

/-- Opening marks of quoted texts and block comments. No word, tag or dollar is one. -/
def isMark (c : Char) : Bool := c == '\'' || c == '"' || c == '[' || c == '/'

/-- The script may go on with `b` instead of `a`. -/
inductive Seam : List Char → List Char → Prop
  | ends (a : List Char) : Seam a []
  | mark {x : Char} (a b : List Char) (mark : isMark x = true) : Seam (x :: a) (x :: b)

theorem isMark_cases {x : Char} (h : isMark x = true) : x = '\'' ∨ x = '"' ∨ x = '[' ∨ x = '/' := by
  simpa [isMark, or_assoc] using h

theorem isTagChar_of_isMark {x : Char} (h : isMark x = true) : isTagChar x = false := by
  rcases isMark_cases h with rfl | rfl | rfl | rfl <;> decide

theorem isBlank_of_isMark {x : Char} (h : isMark x = true) : isBlank x = false := by
  rcases isMark_cases h with rfl | rfl | rfl | rfl <;> decide

theorem isWordChar_of_isMark {x : Char} (h : isMark x = true) (ctx : Context) :
    ctx.isWordChar x = false := by
  have letters : isAlphabetic x = false := by
    rcases isMark_cases h with rfl | rfl | rfl | rfl <;> decide
  have extra : ctx.kind.admits x = false := by
    rcases isMark_cases h with rfl | rfl | rfl | rfl <;> cases ctx.kind <;> decide
  have digit : x.isDigit = false := by
    rcases isMark_cases h with rfl | rfl | rfl | rfl <;> decide
  have other : x ≠ '_' := by
    rcases isMark_cases h with rfl | rfl | rfl | rfl <;> decide
  simp [Context.isWordChar, Context.isLetter, letters, extra, digit, other]

/-- No letter has a mark as its lower case. -/
theorem eq_of_toLower_eq {c m : Char} (mark : isMark m = true) (same : c.toLower = m.toLower) :
    c = m := by
  have lowered : m.toLower = m := by
    rcases isMark_cases mark with rfl | rfl | rfl | rfl <;> decide
  rw [lowered] at same
  delta Char.toLower at same
  split at same
  · next letter =>
    have lowest : 65 ≤ c.val.toNat := UInt32.le_iff_toNat_le.mp letter.1
    have highest : c.val.toNat ≤ 90 := UInt32.le_iff_toNat_le.mp letter.2
    have value : m.val.toNat = c.val.toNat + 32 := by
      rw [← same]
      have shift : ('a'.val - 'A'.val).toNat = 32 := by decide
      rw [UInt32.toNat_add, shift, Nat.mod_eq_of_lt (by omega)]
    have small : m.val.toNat < 97 := by
      rcases isMark_cases mark with rfl | rfl | rfl | rfl <;> decide
    omega
  · exact same

namespace Seam

variable {p a b : List Char} {n : Nat} {dialect : Dialect} {c : Char}

/-- What comes next in the second script also comes next in the first. -/
theorem head? (h : Seam a b) {c : Char} (next : (p ++ b).head? = some c) :
    (p ++ a).head? = some c := by
  cases p with
  | cons x p => exact next
  | nil =>
    cases h with
    | ends => cases next
    | mark => exact next

/-- Where the first script ends its line with the text, the second one does. -/
theorem lineEnds (h : Seam a b) (whole : lineLength (p ++ a) = p.length) : LineEnds b := by
  cases h with
  | ends => exact Or.inl rfl
  | @mark x a b mark =>
    have ends := lineEnds_drop_lineLength (p ++ x :: a)
    rw [whole, List.drop_left] at ends
    rcases ends with empty | ⟨rest, same⟩
    · cases empty
    · exact absurd (List.cons.inj same).1 (ne_lineFeed_of_solid (isBlank_of_isMark mark))

theorem dollarTag?_none (h : Seam a b) (plain : dollarTag? (p ++ a) = none) :
    dollarTag? (p ++ b) = none := by
  rw [Option.eq_none_iff_forall_ne_some] at plain ⊢
  intro tag found
  obtain ⟨⟨more, split⟩, chars, undigit⟩ := dollarTag?_eq_some_iff.mp found
  have inside : ∃ more, p = tag ++ '$' :: more := by
    rcases List.append_eq_append_iff.mp split with ⟨tail, rfl, rest⟩ | ⟨tail, rfl, rest⟩
    · cases h with
      | ends =>
        obtain ⟨rfl, empty⟩ := List.nil_eq_append_iff.mp rest
        cases empty
      | @mark x a b mark =>
        cases tail with
        | nil =>
          obtain ⟨rfl, -⟩ := List.cons.inj rest
          exact absurd mark (by decide)
        | cons y tail =>
          obtain ⟨rfl, -⟩ := List.cons.inj rest
          have tagged := chars x (by simp)
          rw [isTagChar_of_isMark mark] at tagged
          cases tagged
    · cases tail with
      | cons y tail =>
        obtain ⟨rfl, -⟩ := List.cons.inj rest
        exact ⟨tail, rfl⟩
      | nil =>
        rw [List.nil_append] at rest
        cases h with
        | ends => cases rest
        | @mark x a b mark =>
          obtain ⟨rfl, -⟩ := List.cons.inj rest
          exact absurd mark (by decide)
  obtain ⟨more, rfl⟩ := inside
  apply plain tag
  rw [dollarTag?_eq_some_iff]
  refine ⟨⟨more ++ a, by simp⟩, chars, ?_⟩
  cases tag with
  | nil => rfl
  | cons c tag => exact undigit

theorem comment?_none (h : Seam a b) (nonempty : p ≠ [])
    (plain : dialect.comment? (p ++ a) = none) : dialect.comment? (p ++ b) = none :=
  Dialect.comment?_none_ending nonempty (fun _ => h.head? (p := [])) (fun _ => h.head? (p := []))
    plain

theorem comment?_closed (h : Seam a b) (nonempty : p ≠ [])
    (found : dialect.comment? (p ++ a) = some (.closed n)) (fits : n ≤ p.length) :
    dialect.comment? (p ++ b) = some (.closed n) :=
  Dialect.comment?_closed_ending nonempty found fits
    fun _ same whole => h.lineEnds (same ▸ whole)

theorem quote?_none (h : Seam a b) (plain : dialect.quote? c (p ++ a) = none) :
    dialect.quote? c (p ++ b) = none := by
  rw [Dialect.quote?] at plain ⊢
  split at plain
  · cases plain
  · next other =>
    rw [if_neg]
    · exact plain
    · simp only [Bool.and_eq_true, beq_iff_eq] at other ⊢
      exact fun escape => other ⟨escape.1, h.head? escape.2⟩

theorem quote?_some {q : Quote} (h : Seam a b) (found : dialect.quote? c (p ++ a) = some q)
    (fits : q.opening ≤ p.length) : dialect.quote? c (p ++ b) = some q := by
  rw [Dialect.quote?] at found ⊢
  split at found
  · next escape =>
    cases found
    have nonempty : p ≠ [] := List.ne_nil_of_length_pos (by simp at fits; omega)
    rw [head?_ending (a := a) nonempty, if_pos escape]
  · next other =>
    rw [if_neg]
    · exact found
    · simp only [Bool.and_eq_true, beq_iff_eq] at other ⊢
      exact fun escape => other ⟨escape.1, h.head? escape.2⟩

/-- A token that is closed within the text is the same in both scripts. -/
theorem token {startsWord : Char → Bool} (h : Seam a b)
    (fits : ∀ extent, dialect.token startsWord c (p ++ a) = .text extent →
      ∃ n, extent = .closed n ∧ n ≤ p.length + 1) :
    dialect.token startsWord c (p ++ b) = dialect.token startsWord c (p ++ a) := by
  refine Dialect.token_ending ?_ h.quote?_none ?_ fits
  · intro plain
    rw [Dialect.dollarQuote?] at plain ⊢
    split at plain
    · next opens => rw [if_pos opens, h.dollarTag?_none plain]
    · next other => rw [if_neg other]
  · exact fun q quoted short => ⟨h.quote?_some quoted short, h.head? (p := [])⟩

end Seam

end SqlBoundary
