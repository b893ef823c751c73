import SqlBoundary.Proofs.Alike

/-!
# Where tokens end

The last character of a token is not blank, and neither is that of a block comment. So what is
trimmed from the end of a text was no part of a token: only a comment that ends with its line
may have blanks there.
-/

namespace SqlBoundary

open Text Lexeme

/-- The code points of the blanks. -/
def blankCodes : List Nat :=
  [9, 10, 11, 12, 13, 0x20, 0x85, 0xA0, 0x1680, 0x2000, 0x2001, 0x2002, 0x2003, 0x2004, 0x2005,
   0x2006, 0x2007, 0x2008, 0x2009, 0x200A, 0x2028, 0x2029, 0x202F, 0x205F, 0x3000]

theorem mem_blankCodes {c : Char} (h : isBlank c = true) : c.toNat ∈ blankCodes := by
  simp only [isBlank, blankRanges, inRanges, Bool.and_eq_true, Bool.or_eq_true, Nat.ble_eq,
    Bool.or_false] at h
  simp only [blankCodes, List.mem_cons, List.not_mem_nil]
  omega

theorem isWordChar_of_isBlank {c : Char} (h : isBlank c = true) (ctx : Context) :
    ctx.isWordChar c = false := by
  have apart : ∀ kind ∈ StatementKind.all, ∀ n ∈ blankCodes,
      (isAlphabetic (.ofNat n) || kind.admits (.ofNat n) || (Char.ofNat n).isDigit ||
        Char.ofNat n == '_') = false := by
    decide +kernel
  have known : ctx.kind ∈ StatementKind.all := by cases ctx.kind <;> decide
  have plain := apart ctx.kind known _ (mem_blankCodes h)
  rw [Char.ofNat_toNat] at plain
  exact plain

theorem isBlank_of_isWordChar {c : Char} {ctx : Context} (h : ctx.isWordChar c = true) :
    isBlank c = false := by
  rw [Bool.eq_false_iff]
  intro blank
  rw [isWordChar_of_isBlank blank] at h
  cases h

namespace Lexeme

variable {cs : List Char} {n m : Nat}

theorem quotedEnd?_closes {close : Char} {escapes : Bool}
    (found : quotedEnd? close escapes n cs = some m) :
    ∃ k, m = n + k + 1 ∧ cs[k]? = some close := by
  obtain ⟨inner, after, rfl, rfl⟩ := quotedEnd?_split found
  exact ⟨inner.length, rfl, by simp⟩

/-- The last character of a pattern, where that is found. -/
theorem position?_last {pattern : List Char} {c : Char}
    (found : position? (pattern ++ [c]) cs = some n) :
    cs[n + pattern.length]? = some c := by
  obtain ⟨⟨rest, here⟩, -, -⟩ := position?_eq_some_iff.mp found
  rw [← List.getElem?_drop, ← here]
  simp

theorem dollarEnd?_closes {tag : List Char} (found : dollarEnd? tag cs = some m) :
    ∃ k, m = k + 1 ∧ cs[k]? = some '$' := by
  obtain ⟨k, here, rfl, -⟩ := dollarEnd?_split found
  have mark := position?_last here
  rw [List.getElem?_drop] at mark
  refine ⟨_, ?_, mark⟩
  simp
  omega

theorem commentEnd?_closes (found : commentEnd? cs = some m) :
    ∃ k, m = k + 1 ∧ cs[k]? = some '/' := by
  obtain ⟨k, here, rfl⟩ := Option.map_eq_some_iff.mp found
  have split : position? (['*'] ++ ['/']) cs = some k := here
  exact ⟨k + 1, rfl, position?_last split⟩

end Lexeme

/-- The character before the end of the first `n` is not blank. -/
def EndsBefore (n : Nat) (cs : List Char) : Prop :=
  ∃ k c, n = k + 1 ∧ cs[k]? = some c ∧ isBlank c = false

namespace Dialect

variable {dialect : Dialect} {c : Char} {rest : List Char} {n : Nat}

theorem token_closes {p : Char → Bool} (solid : isBlank c = false)
    (closers : ∀ pair ∈ dialect.identifierQuotes, isBlank pair.2 = false)
    (found : dialect.token p c rest = .text (.closed n)) : EndsBefore n (c :: rest) := by
  rw [token] at found
  split at found
  · next tag _ =>
    simp only [Token.text.injEq, dollarExtent] at found
    split at found
    · next m closed =>
      cases found
      obtain ⟨k, rfl, mark⟩ := dollarEnd?_closes closed
      exact ⟨k + 1, '$', rfl, mark, by decide⟩
    · cases found
  · split at found
    · next q quoted =>
      simp only [Token.text.injEq, Quote.extent] at found
      split at found
      · next m closed =>
        cases found
        obtain ⟨k, rfl, mark⟩ := quotedEnd?_closes closed
        rw [List.getElem?_drop] at mark
        refine ⟨_, _, rfl, mark, ?_⟩
        rcases (quote?_eq_some quoted).2 with same | same | ⟨pair, mem, same⟩
        · rw [same]
          decide
        · rw [same]
          exact solid
        · rw [← same]
          exact closers pair mem
      · cases found
    · split at found <;> cases found

/-- A comment ends with its closing mark, or with its line. -/
theorem comment?_closes {cs : List Char} (found : dialect.comment? cs = some (.closed n)) :
    EndsBefore n cs ∨ n = lineLength cs ∧
      ((['-', '-'] <+: cs) ∨ dialect.hashComments = true ∧ cs.head? = some '#') := by
  rw [comment?] at found
  split at found
  · next opens =>
    cases found
    refine Or.inr ⟨rfl, ?_⟩
    simpa [Bool.or_eq_true, List.isPrefixOf_iff_prefix] using opens
  · split at found
    · split at found
      · next m closed =>
        cases found
        obtain ⟨k, rfl, mark⟩ := commentEnd?_closes closed
        rw [List.getElem?_drop] at mark
        exact Or.inl ⟨_, _, by omega, mark, by decide⟩
      · cases found
    · cases found

end Dialect

/-- Whether a comment begins here that ends with its line. -/
def Dialect.OpensLine (dialect : Dialect) (cs : List Char) : Prop :=
  ['-', '-'] <+: cs ∨ dialect.hashComments = true ∧ cs.head? = some '#'

instance (dialect : Dialect) (cs : List Char) : Decidable (dialect.OpensLine cs) :=
  inferInstanceAs (Decidable (_ ∨ _))

namespace Session

variable {s : Session} {draft : Option Draft}

theorem endsBefore_word (ctx : Context) (cs : List Char) :
    (ctx.wordAhead cs).length = 0 ∨ EndsBefore (ctx.wordAhead cs).length cs := by
  obtain ⟨rest, split⟩ := ctx.wordAhead_prefix cs
  cases length : (ctx.wordAhead cs).length with
  | zero => exact Or.inl rfl
  | succ k =>
    have inside : k < (ctx.wordAhead cs).length := by omega
    refine Or.inr ⟨k, (ctx.wordAhead cs)[k], rfl, ?_, ?_⟩
    · conv => lhs; rw [← split]
      rw [List.getElem?_append_left inside, List.getElem?_eq_getElem inside]
    · exact isBlank_of_isWordChar (Context.isWordChar_of_mem_wordAhead (List.getElem_mem inside))

/-- How a pass that finds no delimiter ends. -/
inductive Ends (s : Session) (draft : Option Draft) : Prop
  | nothing (empty : (s.sight draft).length = 0)
  | blank (seen : s.sight draft = .gap .blank)
  | solid (ends : EndsBefore (s.sight draft).length s.cursor.ahead)
  | line (opens : s.dialect.OpensLine s.cursor.ahead)
      (seen : s.sight draft = .gap (.comment (.closed (lineLength s.cursor.ahead))))

theorem ends_of_sight (std : s.dialect.Standard)
    (closers : ∀ pair ∈ s.dialect.identifierQuotes, isBlank pair.2 = false)
    (closed : (s.sight draft).Closed) (more : ∀ n, s.sight draft ≠ .gap (.delimiter n)) :
    s.Ends draft := by
  cases ahead : s.cursor.ahead with
  | nil =>
    have seen : s.sight draft = .ends := by simp only [sight, ahead]
    exact .nothing (by rw [seen]; rfl)
  | cons c rest =>
    cases found : s.gap? draft c with
    | some g =>
      have seen : s.sight draft = .gap g := by simp only [sight, ahead, found]
      cases g with
      | blank => exact .blank seen
      | delimiter n => exact absurd seen (more n)
      | terminator n =>
        obtain ⟨-, -, standing, -⟩ := terminator_of_gap? found
        rw [atTerminator, std.terminator] at standing
        cases standing
      | comment extent =>
        cases extent with
        | closed n =>
          obtain ⟨-, comment⟩ := comment_of_gap? found
          rcases Dialect.comment?_closes comment with ends | ⟨rfl, opens⟩
          · exact .solid (by rw [seen]; exact ends)
          · exact .line opens seen
        | unclosed construct n =>
          rw [seen] at closed
          exact closed.elim
    | none =>
      have solid := (gap?_eq_none_iff.mp found).1
      cases token : s.dialect.token (s.scope draft).startsWord c rest with
      | text extent =>
        have seen : s.sight draft = .text extent := by simp only [sight, ahead, found, token]
        cases extent with
        | closed n =>
          have ends := Dialect.token_closes solid closers token
          exact .solid (by rw [seen, ahead]; exact ends)
        | unclosed construct n =>
          rw [seen] at closed
          exact closed.elim
      | word =>
        have seen : s.sight draft = (s.scope draft).seesWord (c :: rest) := by
          simp only [sight, ahead, found, token]
        rcases endsBefore_word (s.scope draft) (c :: rest) with empty | ends
        · exact .nothing (by rw [seen]; exact empty)
        · exact .solid (by rw [seen, ahead]; exact ends)
      | symbol x =>
        have seen : s.sight draft = .symbol x := by simp only [sight, ahead, found, token]
        exact .solid ⟨0, c, by rw [seen]; rfl, by rw [ahead]; rfl, solid⟩

end Session

end SqlBoundary
