import Mathlib.Data.List.Infix
import SqlBoundary.Proofs.Seam

/-!
# Complete and unclosed constructs

What a comment, a literal, a quoted identifier or a dollar-quoted text is, from its opening mark
to its closing one, is said here without any reading. A text that is taken as one token is
complete in this sense, and one that is found to be unclosed has no beginning that is.
-/

namespace SqlBoundary

open Text Lexeme

/-- The two marks of a text. -/
inductive Marks
  | comment
  | quoted (opens closes : Char) (escapes : Bool)
  | dollar
deriving DecidableEq

/-- What may stand between the marks of a quoted text: a closing mark only if it is doubled, or
behind a backslash where backslashes escape. -/
inductive Inner (closes : Char) (escapes : Bool) : List Char → Prop
  | nil : Inner closes escapes []
  | plain {c : Char} {cs : List Char} (inside : c ≠ closes) (bare : escapes = true → c ≠ '\\')
      (later : Inner closes escapes cs) : Inner closes escapes (c :: cs)
  | doubled {cs : List Char} (later : Inner closes escapes cs) :
      Inner closes escapes (closes :: closes :: cs)
  | escaped {c : Char} {cs : List Char} (on : escapes = true) (later : Inner closes escapes cs) :
      Inner closes escapes ('\\' :: c :: cs)

/-- Letters, digits and underscores between two dollars. A digit at their beginning makes the
first dollar that of a parameter. -/
structure IsTag (tag : List Char) : Prop where
  chars : ∀ c ∈ tag, isTagChar c = true
  parameter : tag.head?.any Char.isDigit = false

/-- The text, both marks included, is complete where `after` follows it. -/
inductive Marks.Complete : Marks → List Char → List Char → Prop
  | comment (inner after : List Char) :
      Complete .comment (['/', '*'] ++ inner ++ ['*', '/']) after
  | quoted {opens closes : Char} {escapes : Bool} {inner after : List Char}
      (holds : Inner closes escapes inner) (single : after.head? ≠ some closes) :
      Complete (.quoted opens closes escapes) (opens :: inner ++ [closes]) after
  | dollar {tag : List Char} (isTag : IsTag tag) (inner after : List Char) :
      Complete .dollar (('$' :: tag ++ ['$']) ++ inner ++ ('$' :: tag ++ ['$'])) after

/-- In this dialect a token that begins with `lead` opens a construct at `ahead`, between these
marks. -/
inductive Starts (dialect : Dialect) : List Char → List Char → Construct → Marks → Prop
  | comment {rest : List Char} : Starts dialect [] ('/' :: '*' :: rest) .blockComment .comment
  | literal {c : Char} {rest : List Char} (quote : c ∈ dialect.stringQuotes) :
      Starts dialect [] (c :: rest) .stringLiteral (.quoted c c dialect.backslashEscapes)
  | extended {e : Char} {rest : List Char} (extends_ : dialect.escapeStrings = true)
      (letter : e = 'E' ∨ e = 'e') :
      Starts dialect [e] ('\'' :: rest) .stringLiteral (.quoted '\'' '\'' true)
  | identifier {c close : Char} {rest : List Char}
      (quote : (c, close) ∈ dialect.identifierQuotes) :
      Starts dialect [] (c :: rest) .quotedIdentifier (.quoted c close false)
  | dollar {tag rest : List Char} (dollars : dialect.dollarQuotes = true) (isTag : IsTag tag) :
      Starts dialect [] ('$' :: (tag ++ '$' :: rest)) .dollarQuotedString .dollar

theorem position?_eq_none_iff {pattern cs : List Char} :
    position? pattern cs = none ↔ ¬ pattern <:+: cs := by
  induction cs with
  | nil =>
    rw [position?, positionFrom?, List.infix_nil]
    cases pattern <;> simp
  | cons c cs ih =>
    rw [position?, positionFrom?, List.infix_cons_iff]
    by_cases here : pattern.isPrefixOf (c :: cs) = true
    · rw [if_pos here]
      simp [List.isPrefixOf_iff_prefix.mp here]
    · rw [if_neg here, positionFrom?_eq, Option.map_eq_none_iff, ih]
      simp [mt List.isPrefixOf_iff_prefix.mpr here]

section quoted

variable {closes : Char} {escapes : Bool} {n m : Nat} {cs inner after : List Char}

theorem inner_of_quotedEnd? (h : quotedEnd? closes escapes n cs = some m) :
    ∃ inner after, cs = inner ++ closes :: after ∧ Inner closes escapes inner ∧
      after.head? ≠ some closes ∧ m = n + inner.length + 1 := by
  fun_induction quotedEnd? closes escapes n cs with
  | case1 => cases h
  | case2 => cases h
  | case3 n c escape x rest ih =>
    obtain ⟨on, rfl⟩ : escapes = true ∧ c = '\\' := by simpa using escape
    obtain ⟨inner, after, rfl, holds, single, rfl⟩ := ih h
    refine ⟨'\\' :: x :: inner, after, rfl, .escaped on holds, single, ?_⟩
    simp only [List.length_cons]
    omega
  | case4 n c _ mark =>
    obtain rfl : c = closes := by simpa using mark
    cases h
    exact ⟨[], [], rfl, .nil, by simp, rfl⟩
  | case5 n c _ mark x rest again ih =>
    obtain rfl : c = closes := by simpa using mark
    obtain rfl : x = c := by simpa using again
    obtain ⟨inner, after, rfl, holds, single, rfl⟩ := ih h
    refine ⟨x :: x :: inner, after, rfl, .doubled holds, single, ?_⟩
    simp only [List.length_cons]
    omega
  | case6 n c _ mark x rest single =>
    obtain rfl : c = closes := by simpa using mark
    cases h
    exact ⟨[], x :: rest, rfl, .nil, by simpa using single, rfl⟩
  | case7 n c rest plain inside ih =>
    obtain ⟨inner, after, rfl, holds, single, rfl⟩ := ih h
    have bare : escapes = true → c ≠ '\\' := by
      rintro rfl rfl
      simp at plain
    refine ⟨c :: inner, after, rfl, .plain (by simpa using inside) bare holds, single, ?_⟩
    simp only [List.length_cons]
    omega

theorem bare_eq_false {c : Char} (bare : escapes = true → c ≠ '\\') :
    (escapes && c == '\\') = false := by
  cases escapes with
  | false => rfl
  | true => simpa using bare rfl

theorem quotedEnd?_of_inner (bare : escapes = true → closes ≠ '\\')
    (holds : Inner closes escapes inner) (single : after.head? ≠ some closes) :
    quotedEnd? closes escapes n (inner ++ closes :: after) = some (n + inner.length + 1) := by
  induction holds generalizing n with
  | nil =>
    have plain := bare_eq_false bare
    cases after with
    | nil => simp [quotedEnd?, plain]
    | cons x after =>
      have other : x ≠ closes := by simpa using single
      simp [quotedEnd?, plain, other]
  | @plain c cs inside bare' _ ih =>
    have plain := bare_eq_false bare'
    rw [List.cons_append]
    unfold quotedEnd?
    simp only [plain, Bool.false_eq_true, if_false, beq_iff_eq, inside, ih, List.length_cons]
    congr 1
    omega
  | @doubled cs _ ih =>
    have plain := bare_eq_false bare
    rw [List.cons_append, List.cons_append]
    unfold quotedEnd?
    simp only [plain, Bool.false_eq_true, if_false, beq_self_eq_true, if_true, ih,
      List.length_cons]
    congr 1
    omega
  | @escaped c cs on _ ih =>
    rw [List.cons_append, List.cons_append]
    unfold quotedEnd?
    simp only [on, beq_self_eq_true, Bool.true_and, if_true]
    rw [on] at ih
    rw [ih, List.length_cons, List.length_cons]
    congr 1
    omega

end quoted

/-- The tag that begins a text is told by the text. -/
theorem IsTag.eq_of_append {tag tag' more more' : List Char} (h : IsTag tag) (h' : IsTag tag')
    (same : tag ++ '$' :: more = tag' ++ '$' :: more') : tag = tag' ∧ more = more' := by
  have stops : isTagChar '$' = false := by decide
  have first : (tag ++ '$' :: more).takeWhile isTagChar = tag := by
    rw [List.takeWhile_append_of_pos h.chars, List.takeWhile_cons_of_neg (by simp [stops]),
      List.append_nil]
  have second : (tag' ++ '$' :: more').takeWhile isTagChar = tag' := by
    rw [List.takeWhile_append_of_pos h'.chars, List.takeWhile_cons_of_neg (by simp [stops]),
      List.append_nil]
  have equal : tag = tag' := by rw [← first, same, second]
  subst equal
  exact ⟨rfl, (List.cons.inj (List.append_cancel_left same)).2⟩

namespace Dialect

variable {dialect : Dialect} {p : Char → Bool} {c : Char} {rest ahead : List Char}
variable {construct : Construct} {n : Nat}

/-- No backslash is a quote where it escapes. -/
def Bare (dialect : Dialect) : Prop := dialect.backslashEscapes = true → '\\' ∉ dialect.stringQuotes

instance (dialect : Dialect) : Decidable dialect.Bare :=
  inferInstanceAs (Decidable (_ → _))

theorem starts_of_quote {q : Quote} (h : dialect.quote? c rest = some q) :
    ∃ lead opens, q.opening = lead.length + 1 ∧
      c :: rest = lead ++ opens :: (c :: rest).drop q.opening ∧
      Starts dialect lead (opens :: (c :: rest).drop q.opening) q.construct
        (.quoted opens q.close q.escapes) := by
  rw [quote?] at h
  split at h
  · next extended =>
    cases h
    simp only [Bool.and_eq_true, Bool.or_eq_true, beq_iff_eq] at extended
    obtain ⟨⟨on, letter⟩, quote⟩ := extended
    obtain ⟨more, rfl⟩ := List.head?_eq_some_iff.mp quote
    exact ⟨[c], '\'', rfl, rfl, .extended on letter⟩
  · split at h
    · next quote =>
      cases h
      exact ⟨[], c, rfl, rfl, .literal (by simpa using quote)⟩
    · obtain ⟨close, closes, rfl⟩ := Option.map_eq_some_iff.mp h
      obtain ⟨⟨opens, close'⟩, found, rfl⟩ := Option.map_eq_some_iff.mp closes
      obtain rfl : opens = c := by simpa using List.find?_some found
      exact ⟨[], opens, rfl, rfl, .identifier (List.mem_of_find?_eq_some found)⟩

/-- Quotes of this kind are closed by no backslash that escapes. -/
theorem bare_of_starts {lead : List Char} {opens closes : Char} {escapes : Bool}
    (bare : dialect.Bare) (h : Starts dialect lead ahead construct (.quoted opens closes escapes)) :
    escapes = true → closes ≠ '\\' := by
  cases h with
  | literal quote =>
    rintro on rfl
    exact bare on quote
  | extended => exact fun _ => by decide
  | identifier => rintro ⟨⟩

theorem isTag_of_dollarQuote? {tag : List Char} (h : dialect.dollarQuote? c rest = some tag) :
    dialect.dollarQuotes = true ∧ c = '$' ∧ IsTag tag ∧ ∃ more, rest = tag ++ '$' :: more := by
  rw [dollarQuote?] at h
  split at h
  · next opens =>
    simp only [Bool.and_eq_true, beq_iff_eq] at opens
    obtain ⟨⟨more, rfl⟩, chars, parameter⟩ := dollarTag?_eq_some_iff.mp h
    refine ⟨opens.1, opens.2, ⟨chars, ?_⟩, more, rfl⟩
    cases tag with
    | nil => rfl
    | cons x tag => exact parameter
  · cases h

/-- A text that is taken as one token is complete. -/
theorem complete_of_token (h : dialect.token p c rest = .text (.closed n)) :
    ∃ lead text after construct marks, c :: rest = lead ++ (text ++ after) ∧
      Starts dialect lead (text ++ after) construct marks ∧ marks.Complete text after ∧
      n = (lead ++ text).length := by
  rw [token] at h
  split at h
  · next tag found =>
    obtain ⟨dollars, rfl, isTag, more, rfl⟩ := isTag_of_dollarQuote? found
    simp only [dollarExtent, Token.text.injEq] at h
    split at h
    · next m ends =>
      cases h
      obtain ⟨k, here, rfl, -⟩ := dollarEnd?_split ends
      have body : (tag ++ '$' :: more).drop (tag.length + 1) = more := by simp
      rw [body] at here
      obtain ⟨⟨after, split⟩, short, -⟩ := position?_eq_some_iff.mp here
      have whole : more = more.take k ++ (('$' :: tag ++ ['$']) ++ after) := by
        rw [split, List.take_append_drop]
      refine ⟨[], ('$' :: tag ++ ['$']) ++ more.take k ++ ('$' :: tag ++ ['$']), after,
        .dollarQuotedString, .dollar, ?_, ?_, .dollar isTag _ _, ?_⟩
      · conv => lhs; rw [whole]
        simp
      · have text : ('$' :: tag ++ ['$']) ++ more.take k ++ ('$' :: tag ++ ['$']) ++ after =
            '$' :: (tag ++ '$' :: more) := by
          conv => rhs; rw [whole]
          simp
        rw [text]
        exact .dollar dollars isTag
      · simp only [List.length_append, List.length_cons, List.length_nil, List.length_take]
        omega
    · cases h
  · split at h
    · next q found =>
      obtain ⟨lead, opens, opening, whole, starts⟩ := starts_of_quote found
      simp only [Quote.extent, Token.text.injEq] at h
      split at h
      · next m ends =>
        cases h
        obtain ⟨inner, after, body, holds, single, rfl⟩ := inner_of_quotedEnd? ends
        have text : opens :: (c :: rest).drop q.opening =
            opens :: inner ++ [q.close] ++ after := by
          rw [body]
          simp
        rw [text] at whole starts
        refine ⟨lead, _, after, _, _, whole, starts, .quoted holds single, ?_⟩
        simp only [List.length_append, List.length_cons, List.length_nil]
        omega
      · cases h
    · split at h <;> cases h

/-- Of a text that is found to be unclosed no beginning is complete. -/
theorem unclosed_of_token (bare : dialect.Bare)
    (h : dialect.token p c rest = .text (.unclosed construct n)) :
    ∃ lead ahead marks, c :: rest = lead ++ ahead ∧ Starts dialect lead ahead construct marks ∧
      ∀ text after, ahead = text ++ after → ¬ marks.Complete text after := by
  rw [token] at h
  split at h
  · next tag found =>
    obtain ⟨dollars, rfl, isTag, more, rfl⟩ := isTag_of_dollarQuote? found
    simp only [dollarExtent, Token.text.injEq] at h
    split at h
    · cases h
    · next never =>
      cases h
      refine ⟨[], '$' :: (tag ++ '$' :: more), .dollar, rfl, .dollar dollars isTag, ?_⟩
      intro text after split complete
      cases complete with
      | @dollar tag' isTag' inner =>
        have same : tag ++ '$' :: more =
            tag' ++ '$' :: (inner ++ '$' :: (tag' ++ '$' :: after)) := by simpa using split
        obtain ⟨rfl, rfl⟩ := isTag.eq_of_append isTag' same
        have body : (tag ++ '$' :: (inner ++ '$' :: (tag ++ '$' :: after))).drop
            (tag.length + 1) = inner ++ '$' :: (tag ++ '$' :: after) := by simp
        rw [dollarEnd?, body, Option.map_eq_none_iff, position?_eq_none_iff] at never
        exact never ⟨inner, after, by simp⟩
  · split at h
    · next q found =>
      obtain ⟨lead, opens, -, whole, starts⟩ := starts_of_quote found
      simp only [Quote.extent, Token.text.injEq] at h
      split at h
      · cases h
      · next never =>
        cases h
        refine ⟨lead, _, _, whole, starts, ?_⟩
        intro text after split complete
        cases complete with
        | @quoted _ _ _ inner _ holds single =>
          have body : (c :: rest).drop q.opening = inner ++ q.close :: after := by
            simpa using split
          rw [body, quotedEnd?_of_inner (bare_of_starts bare starts) holds single] at never
          cases never
    · split at h <;> cases h

theorem unclosed_of_comment (h : dialect.comment? ahead = some (.unclosed construct n)) :
    Starts dialect [] ahead construct .comment ∧
      ∀ text after, ahead = text ++ after → ¬ Marks.comment.Complete text after := by
  rw [comment?] at h
  split at h
  · cases h
  · split at h
    · next opens =>
      obtain ⟨body, rfl⟩ := List.isPrefixOf_iff_prefix.mp opens
      split at h
      · cases h
      · next never =>
        cases h
        refine ⟨.comment, ?_⟩
        intro text after split complete
        cases complete with
        | comment inner =>
          have same : body = inner ++ ['*', '/'] ++ after := by simpa using split
          have rest : (['/', '*'] ++ body).drop 2 = body := rfl
          rw [rest, commentEnd?, Option.map_eq_none_iff, position?_eq_none_iff] at never
          exact never ⟨inner, after, same.symm⟩
    · cases h

end Dialect

theorem Vendor.bare (v : Vendor) : v.dialect.Bare := by
  cases v <;> decide

end SqlBoundary
