import Mathlib.Data.List.Infix
import SqlBoundary.Proofs.Constructs
import SqlBoundary.Proofs.Layout
import SqlBoundary.Proofs.Sealed

/-!
# What the search for a keyword passes over

The search for a keyword has its own idea of quoted texts and comments. Here it is compared with
the reader's, on the text alone. A comment is passed alike by both, and so is a quoted text, if
backslashes escape in it or none stands before a closing mark. Where all that comes before such
a text is passed alike, the search either has ended there or goes on with that text, whatever
its contents are.
-/

namespace SqlBoundary.Lexeme

open Text

variable {keywords : List String} {depth k : Nat} {m c close : Char} {escapes : Bool}
variable {cs rest text after after' : List Char}

/-- The search takes what begins with `c` for a quoted text or a comment. -/
def opensText (c : Char) (next : Option Char) : Bool :=
  isQuote c || (c == '-' && next == some '-') || (c == '/' && next == some '*')

/-- A quoted text or a comment begins somewhere in these characters. -/
def marked (after : List Char) : List Char → Bool
  | [] => false
  | c :: cs => opensText c (cs ++ after).head? || marked after cs

/-- A backslash stands right before a closing mark. -/
def slips (close : Char) : List Char → Bool
  | [] => false
  | c :: cs => (c == '\\' && cs.head? == some close) || slips close cs

/-- The search passes this text as if it were not there. -/
def Blind (text after : List Char) : Prop :=
  ∀ keywords depth,
    seekKeyword keywords 0 depth (text ++ after) = seekKeyword keywords 0 depth after

theorem looseQuotedEnd_add (close : Char) (n : Nat) (cs : List Char) :
    looseQuotedEnd close n cs = n + looseQuotedEnd close 0 cs := by
  have shift : ∀ n k, looseQuotedEnd close (n + k) cs = n + looseQuotedEnd close k cs := by
    intro n k
    induction k, cs using looseQuotedEnd.induct close with
    | case1 k => rfl
    | case2 k c escape => simp only [looseQuotedEnd, escape, if_true, Nat.add_assoc]
    | case3 k c escape x rest ih =>
      simp only [looseQuotedEnd, escape, if_true]
      exact ih
    | case4 k c rest plain same =>
      unfold looseQuotedEnd
      rw [if_neg plain, if_neg plain, if_pos same, if_pos same, Nat.add_assoc]
    | case5 k c rest plain other ih =>
      unfold looseQuotedEnd
      rw [if_neg plain, if_neg plain, if_neg other, if_neg other]
      exact ih
  exact shift n 0

/-- The search from inside of a quoted text on. -/
def seekInside (keywords : List String) (depth : Nat) (close : Char) (cs : List Char) :
    Option String :=
  seekKeyword keywords (looseQuotedEnd close 0 cs) depth cs

theorem seekKeyword_quote (quote : isQuote c = true) :
    seekKeyword keywords 0 depth (c :: rest) = seekInside keywords depth c rest := by
  have marks : c = '\'' ∨ c = '"' ∨ c = '\x60' := by simpa [isQuote, or_assoc] using quote
  rcases marks with rfl | rfl | rfl <;> simp [seekKeyword, seekInside, isQuote]

theorem seekInside_escape (x : Char) :
    seekInside keywords depth close ('\\' :: x :: rest) =
      seekInside keywords depth close rest := by
  have two : looseQuotedEnd close 0 ('\\' :: x :: rest) = looseQuotedEnd close 0 rest + 2 := by
    rw [Nat.add_comm, ← looseQuotedEnd_add]
    rfl
  rw [seekInside, two]
  rfl

theorem seekInside_close (mark : close ≠ '\\') :
    seekInside keywords depth close (close :: rest) = seekKeyword keywords 0 depth rest := by
  have one : looseQuotedEnd close 0 (close :: rest) = 1 := by
    unfold looseQuotedEnd
    simp [mark]
  rw [seekInside, one]
  rfl

theorem seekInside_other (plain : c ≠ '\\') (inner : c ≠ close) :
    seekInside keywords depth close (c :: rest) = seekInside keywords depth close rest := by
  have one : looseQuotedEnd close 0 (c :: rest) = looseQuotedEnd close 0 rest + 1 := by
    rw [Nat.add_comm, ← looseQuotedEnd_add]
    conv => lhs; unfold looseQuotedEnd
    simp [plain, inner]
  rw [seekInside, one]
  rfl

theorem slips_tail (faithful : slips close (c :: cs) = false) : slips close cs = false := by
  simp only [slips, Bool.or_eq_false_iff] at faithful
  exact faithful.2

/-- What follows the opening mark of a quoted text that both read alike, closing mark included:
no backslash hides a closing mark from the search that the reader sees. -/
inductive Body (close : Char) (escapes : Bool) : List Char → Prop
  | last : Body close escapes [close]
  | doubled {rest : List Char} (later : Body close escapes rest) :
      Body close escapes (close :: close :: rest)
  | slash {x : Char} {rest : List Char} (kept : escapes = true ∨ x ≠ close)
      (later : Body close escapes rest) : Body close escapes ('\\' :: x :: rest)
  | other {c : Char} {rest : List Char} (plain : c ≠ '\\') (inner : c ≠ close)
      (later : Body close escapes rest) : Body close escapes (c :: rest)

/-- Where no backslash hides a closing mark, the search reads what the reader does. It takes a
backslash and the character after it as one, so what may follow a backslash goes along. -/
theorem body_of_inner (holds : Inner close escapes text)
    (faithful : escapes = true ∨ slips close (text ++ [close]) = false) :
    Body close escapes (text ++ [close]) ∧
      (escapes = false → (text ++ [close]).head? ≠ some close →
        Body close escapes ('\\' :: (text ++ [close]))) := by
  induction holds with
  | nil => exact ⟨.last, fun _ apart => absurd rfl apart⟩
  | @plain c cs inside bare _ ih =>
    obtain ⟨later, behind⟩ := ih (faithful.imp_right slips_tail)
    refine ⟨?_, fun _ _ => .slash (Or.inr inside) later⟩
    by_cases slash : c = '\\'
    · subst slash
      have literal : escapes = false := Bool.eq_false_iff.mpr fun on => bare on rfl
      have kept := faithful.resolve_left (Bool.eq_false_iff.mp literal)
      simp only [List.cons_append, slips, Bool.or_eq_false_iff, Bool.and_eq_false_imp,
        beq_iff_eq, beq_eq_false_iff_ne, forall_const] at kept
      exact behind literal kept.1
    · exact .other slash inside later
  | doubled _ ih =>
    obtain ⟨later, -⟩ := ih (faithful.imp_right fun kept => slips_tail (slips_tail kept))
    exact ⟨.doubled later, fun _ apart => absurd rfl apart⟩
  | escaped on _ ih =>
    obtain ⟨later, -⟩ := ih (Or.inl on)
    exact ⟨.slash (Or.inl on) later, fun off => absurd on (Bool.eq_false_iff.mp off)⟩

theorem body_of_quotedEnd? {n : Nat} (h : quotedEnd? close escapes k (text ++ after) = some n)
    (long : n = k + text.length) (faithful : escapes = true ∨ slips close text = false) :
    Body close escapes text := by
  obtain ⟨inner, rest, split, holds, -, rfl⟩ := inner_of_quotedEnd? h
  rw [List.append_cons] at split
  obtain ⟨rfl, -⟩ := List.append_inj split (by simp; omega)
  exact (body_of_inner holds faithful).1

theorem Body.seekInside (quote : isQuote close = true) (body : Body close escapes text) :
    seekInside keywords depth close (text ++ after) = seekKeyword keywords 0 depth after := by
  have mark : close ≠ '\\' := by
    rintro rfl
    exact absurd quote (by decide)
  induction body with
  | last => exact seekInside_close mark
  | doubled _ ih =>
    rw [List.cons_append, List.cons_append, seekInside_close mark, seekKeyword_quote quote]
    exact ih
  | slash _ _ ih => exact (seekInside_escape _).trans ih
  | other plain inner _ ih => exact (seekInside_other plain inner).trans ih

theorem Body.blind (quote : isQuote close = true) (body : Body close escapes text) :
    Blind (close :: text) after := by
  intro keywords depth
  rw [List.cons_append, seekKeyword_quote quote]
  exact body.seekInside quote

theorem blind_lineComment (oneLine : '\n' ∉ text) (ends : LineEnds after) :
    Blind ('-' :: '-' :: text) after := by
  intro keywords depth
  have line : lineLength ('-' :: (text ++ after)) = ('-' :: text).length := by
    have whole : ('-' :: text ++ after).takeWhile (· != '\n') = '-' :: text := by
      refine takeWhile_append ?_ ?_
      · intro c mem
        have other : c ≠ '\n' := by
          rintro rfl
          rcases List.mem_cons.mp mem with same | mem
          · exact absurd same (by decide)
          · exact oneLine mem
        simpa using other
      · rintro c head
        rcases ends with rfl | ⟨rest, rfl⟩
        · cases head
        · cases head
          rfl
    exact congrArg List.length whole
  have here : seekKeyword keywords 0 depth ('-' :: '-' :: (text ++ after)) =
      seekKeyword keywords (lineLength ('-' :: (text ++ after))) depth ('-' :: (text ++ after)) := by
    simp [seekKeyword, isQuote]
  rw [List.cons_append, List.cons_append, here, line]
  exact seekKeyword_skip

theorem blind_blockComment (first : ¬ ['*', '/'] <:+: text) :
    Blind ('/' :: '*' :: (text ++ ['*', '/'])) after := by
  intro keywords depth
  have found : position? ['*', '/'] (text ++ ['*', '/'] ++ after) = some text.length := by
    obtain ⟨n, found, same⟩ := Option.map_eq_some_iff.mp (commentEnd?_sealed first after)
    rw [found, Nat.add_right_cancel same]
  have here : seekKeyword keywords 0 depth ('/' :: '*' :: (text ++ ['*', '/'] ++ after)) =
      seekKeyword keywords (looseCommentEnd (text ++ ['*', '/'] ++ after) + 1) depth
        ('*' :: (text ++ ['*', '/'] ++ after)) := by
    simp [seekKeyword, isQuote]
  have long : looseCommentEnd (text ++ ['*', '/'] ++ after) = (text ++ ['*', '/']).length := by
    rw [looseCommentEnd, found]
    simp
  rw [List.cons_append, List.cons_append, here, long, seekKeyword]
  exact seekKeyword_skip

/-- Before a text that begins with `m`, the search begins no quoted text and no comment but
those that it passes as if they were not there. -/
inductive Clear (m : Char) : List Char → Prop
  | nil : Clear m []
  | plain {c : Char} {rest : List Char} (plain : opensText c (rest ++ [m]).head? = false)
      (later : Clear m rest) : Clear m (c :: rest)
  | text {c : Char} {text rest : List Char} (mark : isNameChar c = false)
      (blind : ∀ after, after.head? = some m → Blind (c :: text) (rest ++ after))
      (later : Clear m rest) : Clear m (c :: text ++ rest)

/-- A name lies within the characters that begin no text. -/
theorem Clear.dropName (clear : Clear m rest) : Clear m (rest.dropWhile isNameChar) := by
  induction clear with
  | nil => exact .nil
  | @plain c rest plain later ih =>
    by_cases name : isNameChar c = true
    · rw [List.dropWhile_cons_of_pos name]
      exact ih
    · rw [List.dropWhile_cons_of_neg name]
      exact .plain plain later
  | @text c text rest mark blind later =>
    rw [List.cons_append, List.dropWhile_cons_of_neg (by simp [mark])]
    exact .text mark blind later

theorem seekKeyword_plain (keywords : List String) (depth : Nat)
    (plain : opensText c rest.head? = false) :
    seekKeyword keywords 0 depth (c :: rest) =
      if c = '(' then seekKeyword keywords 0 (depth + 1) rest
      else if c = ')' then
        if depth = 0 then none else seekKeyword keywords 0 (depth - 1) rest
      else if depth = 0 ∧ (c = ';' ∨ c = ',') then none
      else if startsName c then
        match if depth = 0 then keywords.find?
          (sameIgnoringCase (c :: rest.takeWhile isNameChar) ·.toList) else none with
        | some keyword => some keyword
        | none => seekKeyword keywords 0 depth (rest.dropWhile isNameChar)
      else seekKeyword keywords 0 depth rest := by
  simp only [opensText, Bool.or_eq_false_iff] at plain
  obtain ⟨⟨quote, line⟩, block⟩ := plain
  have name : seekKeyword keywords (rest.takeWhile isNameChar).length depth rest =
      seekKeyword keywords 0 depth (rest.dropWhile isNameChar) := by
    conv => lhs; arg 4; rw [← List.takeWhile_append_dropWhile (p := isNameChar) (l := rest)]
    exact seekKeyword_skip
  rw [seekKeyword]
  cases met : if depth = 0 then keywords.find?
      (sameIgnoringCase (c :: rest.takeWhile isNameChar) ·.toList) else none with
  | none => simp [quote, line, block, name, met]
  | some keyword => simp [quote, line, block, met]

/-- A name that stands before a text ends there. -/
theorem spanName (rest : List Char) (mark : isNameChar m = false) (head : after.head? = some m) :
    (rest ++ after).takeWhile isNameChar = rest.takeWhile isNameChar ∧
      (rest ++ after).dropWhile isNameChar = rest.dropWhile isNameChar ++ after := by
  obtain ⟨later, rfl⟩ := List.head?_eq_some_iff.mp head
  induction rest with
  | nil => simp [mark]
  | cons c rest ih =>
    by_cases name : isNameChar c = true
    · simp [name, ih]
    · simp [name]

/-- Before any text that begins with `m`, the search ends in `p`, or it goes on with that text;
in either case the text has no part in it. -/
def Decided (m : Char) (keywords : List String) (depth : Nat) (p : List Char) : Prop :=
  (∃ r, ∀ after, after.head? = some m → seekKeyword keywords 0 depth (p ++ after) = r) ∨
    ∃ k, ∀ after, after.head? = some m →
      seekKeyword keywords 0 depth (p ++ after) = seekKeyword keywords 0 k after

theorem Decided.of_same {p q : List Char} (h : Decided m keywords k q)
    (same : ∀ after, after.head? = some m →
      seekKeyword keywords 0 depth (p ++ after) = seekKeyword keywords 0 k (q ++ after)) :
    Decided m keywords depth p := by
  rcases h with ⟨r, ends⟩ | ⟨k, goes⟩
  · exact Or.inl ⟨r, fun after head => (same after head).trans (ends after head)⟩
  · exact Or.inr ⟨k, fun after head => (same after head).trans (goes after head)⟩

/-- A character that begins no text ends the search, changes the depth or begins a name. -/
theorem Decided.cons (plain : opensText c (rest ++ [m]).head? = false)
    (mark : isNameChar m = false) (later : ∀ depth, Decided m keywords depth rest)
    (dropped : ∀ depth, Decided m keywords depth (rest.dropWhile isNameChar)) :
    Decided m keywords depth (c :: rest) := by
  have go : ∀ after, after.head? = some m → opensText c (rest ++ after).head? = false := by
    intro after head
    obtain ⟨more, rfl⟩ := List.head?_eq_some_iff.mp head
    cases rest with
    | nil => exact plain
    | cons x rest => exact plain
  by_cases opens : c = '('
  · refine (later (depth + 1)).of_same ?_
    intro after head
    rw [List.cons_append, seekKeyword_plain keywords depth (go after head), if_pos opens]
  by_cases closes : c = ')'
  · cases depth with
    | zero =>
      refine Or.inl ⟨none, ?_⟩
      intro after head
      rw [List.cons_append, seekKeyword_plain keywords 0 (go after head), if_neg opens,
        if_pos closes, if_pos rfl]
    | succ depth =>
      refine (later depth).of_same ?_
      intro after head
      rw [List.cons_append, seekKeyword_plain keywords (depth + 1) (go after head), if_neg opens,
        if_pos closes, if_neg (Nat.succ_ne_zero depth)]
      rfl
  by_cases stops : depth = 0 ∧ (c = ';' ∨ c = ',')
  · refine Or.inl ⟨none, ?_⟩
    intro after head
    rw [List.cons_append, seekKeyword_plain keywords depth (go after head), if_neg opens,
      if_neg closes, if_pos stops]
  by_cases name : startsName c = true
  · cases met : if depth = 0 then keywords.find?
        (sameIgnoringCase (c :: rest.takeWhile isNameChar) ·.toList) else none with
    | some keyword =>
      refine Or.inl ⟨some keyword, ?_⟩
      intro after head
      rw [List.cons_append, seekKeyword_plain keywords depth (go after head), if_neg opens,
        if_neg closes, if_neg stops, if_pos name, (spanName rest mark head).1, met]
    | none =>
      refine (dropped depth).of_same ?_
      intro after head
      rw [List.cons_append, seekKeyword_plain keywords depth (go after head), if_neg opens,
        if_neg closes, if_neg stops, if_pos name, (spanName rest mark head).1, met,
        (spanName rest mark head).2]
  · refine (later depth).of_same ?_
    intro after head
    rw [List.cons_append, seekKeyword_plain keywords depth (go after head), if_neg opens,
      if_neg closes, if_neg stops, if_neg name]

theorem decided_of_clear {p : List Char} (clear : Clear m p) (mark : isNameChar m = false)
    (keywords : List String) (depth : Nat) : Decided m keywords depth p := by
  induction size : p.length using Nat.strong_induction_on generalizing p depth with
  | _ length ih =>
    cases clear with
    | nil => exact Or.inr ⟨depth, fun after _ => rfl⟩
    | @plain c rest plain later =>
      have shorter : rest.length < length := by
        simp only [List.length_cons] at size
        omega
      have within := (List.dropWhile_suffix (l := rest) isNameChar).length_le
      exact .cons plain mark (fun depth => ih rest.length shorter later depth rfl)
        (fun depth => ih _ (Nat.lt_of_le_of_lt within shorter) later.dropName depth rfl)
    | @text c text rest begins blind later =>
      have shorter : rest.length < length := by
        simp only [List.length_append, List.length_cons] at size
        omega
      refine (ih rest.length shorter later depth rfl).of_same ?_
      intro after head
      rw [List.append_assoc]
      exact blind after head keywords depth

/-- The search comes to the same with one text in place of another, if both are passed as if
they were not there and all before them is passed alike. -/
theorem seekKeyword_replace {p text text' after : List Char} (clear : Clear m p)
    (mark : isNameChar m = false) (head : text.head? = some m) (head' : text'.head? = some m)
    (blind : Blind text after) (blind' : Blind text' after)
    (keywords : List String) (depth : Nat) :
    seekKeyword keywords 0 depth (p ++ (text' ++ after)) =
      seekKeyword keywords 0 depth (p ++ (text ++ after)) := by
  have begins : (text ++ after).head? = some m := by rw [List.head?_append, head]; rfl
  have begins' : (text' ++ after).head? = some m := by rw [List.head?_append, head']; rfl
  rcases decided_of_clear clear mark keywords depth with ⟨r, ends⟩ | ⟨k, goes⟩
  · rw [ends _ begins, ends _ begins']
  · rw [goes _ begins, goes _ begins', blind keywords k, blind' keywords k]

end SqlBoundary.Lexeme
