import SqlBoundary.Proofs.Calls
import SqlBoundary.Proofs.DirectiveLine
import SqlBoundary.Proofs.EndTail
import SqlBoundary.Proofs.Lookahead

/-!
# Where the search for a keyword agrees with the reader

Whether an `IF`, a `PROCEDURE` or a `FUNCTION` opens a block may depend on the text after it,
which is searched for a keyword before it is read. Comments, string literals and quoted
identifiers in that text should have no influence. `opens_of_replaced` says that they have none
as long as the search takes everything up to them as the reader does. `misread` lists where it
does not: comments that begin with a hash, backslashes that the dialect does not let escape, a
backtick that quotes nothing in the dialect, and delimiters and directives that hold a mark.
-/

namespace SqlBoundary

open Text Lexeme

/-- The dialects whose stored programs are searched for keywords. -/
def Dialect.Searches (dialect : Dialect) : Prop := dialect = .mysql ∨ dialect = .oracle

namespace Session

variable {s t u z : Session} {draft e f : Option Draft} {d : Draft} {c m : Char} {n : Nat}
variable {rest ahead : List Char} {r : Except Fault (Option Statement)}

/-- The characters that the next pass takes as a comment or as a quoted text. -/
def whole? (s : Session) (draft : Option Draft) : Option Nat :=
  match s.cursor.ahead with
  | [] => none
  | c :: rest =>
    match s.gap? draft c with
    | some (.comment (.closed n)) => some n
    | some _ => none
    | none =>
      match s.begin draft with
      | .error _ => none
      | .ok (u, _) =>
        match u.dialect.token u.context.startsWord c rest with
        | .text (.closed n) => some n
        | _ => none

/-- The search for a keyword takes what the next pass takes for something else. -/
def misread (s : Session) (draft : Option Draft) : Bool :=
  match s.cursor.ahead with
  | [] => false
  | c :: rest =>
    match s.gap? draft c with
    | some .blank => false
    | some (.comment _) => c == '#'
    | some (.delimiter n) => marked ((c :: rest).drop n) ((c :: rest).take n)
    | some (.terminator n) => marked ((c :: rest).drop n) ((c :: rest).take n)
    | none =>
      match s.begin draft with
      | .error _ => false
      | .ok (u, d) =>
        match u.dialect.token u.context.startsWord c rest with
        | .text (.closed n) =>
          (u.dialect.quote? c rest).any fun q => !q.escapes && slips q.close ((c :: rest).take n)
        | .text (.unclosed _ _) => false
        | .symbol c => c == '\x60'
        | .word =>
          u.mayDirect d &&
            match u.directive? with
            | .ok (some _) =>
              let n := lineLength (c :: rest)
              marked ((c :: rest).drop n) ((c :: rest).take n)
            | _ => false

/-- Reading leads on, also from one call to the next, and nothing on the way is misread. -/
inductive Agreed : Session → Option Draft → Session → Option Draft → Prop
  | refl (s : Session) (draft : Option Draft) : Agreed s draft s draft
  | pass {s t z : Session} {draft e f : Option Draft} (told : s.misread draft = false)
      (pass : s.pass draft = .more t e) (later : Agreed t e z f) : Agreed s draft z f
  | call {s t z : Session} {draft f : Option Draft} {r : Except Fault (Option Statement)}
      (exhausted : Bool) (told : s.misread draft = false)
      (answer : (s.pass draft).answer? = some (t, r))
      (later : Agreed { t with exhausted } none z f) : Agreed s draft z f

/-- The search passes this text as if it were not there, with any text after it that begins as
this one does. -/
def Hidden (text after : List Char) : Prop :=
  ∃ c cs, text = c :: cs ∧ isNameChar c = false ∧
    ∀ later, later.head? = after.head? → Blind text later

/-- The search passes this text as the reader does. -/
def Passable (text after : List Char) : Prop := marked after text = false ∨ Hidden text after

theorem clear_of_marked {w p : List Char} (plain : marked (p ++ z.cursor.ahead) w = false)
    (head : z.cursor.ahead.head? = some m) (clear : Clear m p) : Clear m (w ++ p) := by
  induction w with
  | nil => exact clear
  | cons c w ih =>
    simp only [marked, Bool.or_eq_false_iff] at plain
    have next : (w ++ p ++ [m]).head? = (w ++ (p ++ z.cursor.ahead)).head? := by
      obtain ⟨rest, ahead⟩ := List.head?_eq_some_iff.mp head
      rw [ahead]
      cases w with
      | nil => cases p <;> rfl
      | cons x w => rfl
    have begins : opensText c (w ++ p ++ [m]).head? = false := by
      rw [next]
      exact plain.1
    exact .plain begins (ih plain.2)

theorem Passable.clear {w p : List Char} (passable : Passable w (p ++ z.cursor.ahead))
    (head : z.cursor.ahead.head? = some m) (clear : Clear m p) : Clear m (w ++ p) := by
  rcases passable with plain | ⟨c, cs, rfl, mark, blind⟩
  · exact clear_of_marked plain head clear
  · refine .text mark ?_ clear
    intro after begins
    refine blind (p ++ after) ?_
    rw [List.head?_append, List.head?_append, begins, head]

theorem hidden_of_comment {dialect : Dialect} (found : dialect.comment? ahead = some (.closed n))
    (hash : ahead.head? ≠ some '#') : Hidden (ahead.take n) (ahead.drop n) := by
  rw [Dialect.comment?] at found
  split at found
  · next opens =>
    have long : lineLength ahead = n := by
      cases found
      rfl
    have dashes : ['-', '-'] <+: ahead := by
      simp only [Bool.or_eq_true, Bool.and_eq_true, beq_iff_eq, List.isPrefixOf_iff_prefix] at opens
      rcases opens with dashes | ⟨-, same⟩
      · exact dashes
      · exact absurd same hash
    obtain ⟨rest, rfl⟩ := dashes
    have line : (['-', '-'] ++ rest).take n = '-' :: '-' :: currentLine rest := by
      rw [← long, take_lineLength]
      rfl
    rw [line]
    refine ⟨'-', _, rfl, by decide, ?_⟩
    intro later begins
    refine blind_lineComment (lineFeed_not_mem_currentLine rest) ?_
    rw [← long] at begins
    rcases lineEnds_drop_lineLength (['-', '-'] ++ rest) with none | ⟨more, some⟩
    · rw [none] at begins
      exact Or.inl (List.head?_eq_none_iff.mp begins)
    · rw [some] at begins
      obtain ⟨after, same⟩ := List.head?_eq_some_iff.mp begins
      exact Or.inr ⟨after, same⟩
  · split at found
    · next opens =>
      obtain ⟨body, rfl⟩ := List.isPrefixOf_iff_prefix.mp opens
      split at found
      · next k closed =>
        obtain ⟨inner, rest, rfl, rfl, first⟩ := commentEnd?_eq_some closed
        have whole : (['/', '*'] ++ (inner ++ ['*', '/'] ++ rest)).take n =
            '/' :: '*' :: (inner ++ ['*', '/']) := by
          have long : n = ('/' :: '*' :: (inner ++ ['*', '/'])).length := by
            cases found
            simp
          exact List.take_left' long.symm
        rw [whole]
        refine ⟨'/', _, rfl, by decide, ?_⟩
        intro later _
        refine blind_blockComment ?_
        intro inside
        exact first (inside.trans (List.infix_append' [] inner ['*']))
      · cases found
    · cases found

theorem hidden_of_quote {q : Quote} (quote : isQuote c = true) (same : q.close = c)
    (found : quotedEnd? q.close q.escapes 1 rest = some n)
    (faithful : q.escapes = true ∨ slips q.close ((c :: rest).take n) = false) :
    Hidden ((c :: rest).take n) ((c :: rest).drop n) := by
  obtain ⟨k, rfl⟩ : ∃ k, n = k + 1 := ⟨n - 1, by have := quotedEnd?_lt found; omega⟩
  have fits := quotedEnd?_le found
  rw [List.take_succ_cons] at faithful ⊢
  rw [← List.take_append_drop k rest, same] at found
  have long : (rest.take k).length = k := by
    rw [List.length_take]
    omega
  have body : Body c q.escapes (rest.take k) := by
    refine body_of_quotedEnd? found (by omega) ?_
    rw [← same]
    exact faithful.imp_right slips_tail
  refine ⟨c, _, rfl, ?_, fun later _ => body.blind quote⟩
  have marks : c = '\'' ∨ c = '"' ∨ c = '\x60' := by simpa [isQuote, or_assoc] using quote
  rcases marks with rfl | rfl | rfl <;> decide +kernel

theorem quote?_searches {dialect : Dialect} {q : Quote} (searches : dialect.Searches)
    (found : dialect.quote? c rest = some q) :
    isQuote c = true ∧ q.close = c ∧ q.opening = 1 := by
  have marks : c = '\'' ∨ c = '"' ∨ c = '\x60' := by
    rcases searches with rfl | rfl
    all_goals
      simp only [Dialect.quote?, Dialect.mysql, Dialect.oracle, Dialect.plain,
        Dialect.identifierClose?, List.contains_cons, List.contains_nil, List.find?] at found
      grind
  rcases searches with rfl | rfl <;> rcases marks with rfl | rfl | rfl <;>
    simp_all [Dialect.quote?, Dialect.mysql, Dialect.oracle, Dialect.plain,
      Dialect.identifierClose?, isQuote]
  all_goals
    subst found
    exact ⟨rfl, rfl⟩

theorem isQuote_of_none {dialect : Dialect} (searches : dialect.Searches)
    (found : dialect.quote? c rest = none) (back : c ≠ '\x60') : isQuote c = false := by
  rw [Bool.eq_false_iff]
  intro quote
  have marks : c = '\'' ∨ c = '"' ∨ c = '\x60' := by simpa [isQuote, or_assoc] using quote
  rcases searches with rfl | rfl <;> rcases marks with rfl | rfl | rfl <;>
    simp_all [Dialect.quote?, Dialect.mysql, Dialect.oracle, Dialect.plain,
      Dialect.identifierClose?]

theorem token_searches {dialect : Dialect} (searches : dialect.Searches) (p : Char → Bool) :
    dialect.token p c rest =
      match dialect.quote? c rest with
      | some q => .text (q.extent (c :: rest))
      | none => if p c then .word else .symbol c := by
  have plain : dialect.dollarQuote? c rest = none := by
    rcases searches with rfl | rfl <;> rfl
  cases found : dialect.quote? c rest <;> simp [Dialect.token, plain, found]

/-- A quoted text that the reader takes is passed alike, unless a backslash misleads. -/
theorem hidden_of_text {dialect : Dialect} {p : Char → Bool} (searches : dialect.Searches)
    (token : dialect.token p c rest = .text (.closed n))
    (faithful : (dialect.quote? c rest).any
      (fun q => !q.escapes && slips q.close ((c :: rest).take n)) = false) :
    Hidden ((c :: rest).take n) ((c :: rest).drop n) := by
  rw [token_searches searches] at token
  cases found : dialect.quote? c rest with
  | none =>
    rw [found] at token
    dsimp only at token
    split at token <;> cases token
  | some q =>
    obtain ⟨quote, same, opening⟩ := quote?_searches searches found
    rw [found] at token faithful
    simp only [Token.text.injEq, Quote.extent, opening] at token
    cases closed : quotedEnd? q.close q.escapes 1 ((c :: rest).drop 1) with
    | none =>
      rw [closed] at token
      cases token
    | some k =>
      rw [closed] at token
      obtain rfl : k = n := Extent.closed.inj token
      refine hidden_of_quote quote same closed ?_
      simp only [Option.any_some, Bool.and_eq_false_iff, Bool.not_eq_false'] at faithful
      exact faithful

/-- What lies between the two places is passed alike. -/
def Leads (s t : Session) : Prop :=
  ∃ w, s.cursor.ahead = w ++ t.cursor.ahead ∧
    (t.cursor.ahead ≠ [] → Passable w t.cursor.ahead)

theorem leads_of_skip (moved : t.cursor.ahead = s.cursor.ahead.drop n)
    (passable : Passable (s.cursor.ahead.take n) (s.cursor.ahead.drop n)) : s.Leads t := by
  refine ⟨s.cursor.ahead.take n, ?_, ?_⟩
  · rw [moved, List.take_append_drop]
  · intro _
    rw [moved]
    exact passable

theorem leads_of_same (same : t.cursor.ahead = s.cursor.ahead) : s.Leads t :=
  ⟨[], same.symm, fun _ => Or.inl rfl⟩

theorem leads_of_end (done : t.cursor.ahead = []) : s.Leads t := by
  refine ⟨s.cursor.ahead, ?_, ?_⟩
  · rw [done, List.append_nil]
  · intro more
    exact absurd done more

theorem opensText_of_blank {next : Option Char} (blank : isBlank c = true) :
    opensText c next = false := by
  have apart : ∀ n ∈ blankCodes, isQuote (.ofNat n) = false ∧ Char.ofNat n ≠ '-' ∧
      Char.ofNat n ≠ '/' := by
    decide +kernel
  have plain := apart _ (mem_blankCodes blank)
  rw [Char.ofNat_toNat] at plain
  simp [opensText, plain]

theorem opensText_of_wordChar {ctx : Context} {next : Option Char}
    (word : ctx.isWordChar c = true) : opensText c next = false := by
  rw [Bool.eq_false_iff]
  intro opens
  have marks : c ∈ ['\'', '"', '\x60', '-', '/'] := by
    simp only [opensText, isQuote, Bool.or_eq_true, Bool.and_eq_true, beq_iff_eq] at opens
    simp only [List.mem_cons, List.not_mem_nil, or_false]
    tauto
  have apart : ∀ c ∈ ['\'', '"', '\x60', '-', '/'], ∀ kind ∈ StatementKind.all,
      (isAlphabetic c || kind.admits c || c.isDigit || c == '_') = false := by
    decide +kernel
  have known : ctx.kind ∈ StatementKind.all := by cases ctx.kind <;> decide
  have plain := apart c marks ctx.kind known
  rw [Context.isWordChar, Context.isLetter, plain] at word
  cases word

theorem marked_of_word {ctx : Context} {w after : List Char}
    (word : ∀ c ∈ w, ctx.isWordChar c = true) : marked after w = false := by
  induction w with
  | nil => rfl
  | cons c w ih =>
    rw [marked, opensText_of_wordChar (word c List.mem_cons_self), Bool.false_or]
    exact ih (fun x mem => word x (List.mem_cons_of_mem c mem))

theorem misread_of_gap {g : Gap} (ahead : s.cursor.ahead = c :: rest)
    (found : s.gap? draft c = some g) :
    s.misread draft =
      match g with
      | .blank => false
      | .comment _ => c == '#'
      | .delimiter n => marked ((c :: rest).drop n) ((c :: rest).take n)
      | .terminator n => marked ((c :: rest).drop n) ((c :: rest).take n) := by
  cases g <;> simp [misread, ahead, found]

theorem misread_of_begin (ahead : s.cursor.ahead = c :: rest) (solid : s.gap? draft c = none)
    (begun : s.begin draft = .ok (u, d)) :
    s.misread draft =
      match u.dialect.token u.context.startsWord c rest with
      | .text (.closed n) =>
        (u.dialect.quote? c rest).any fun q => !q.escapes && slips q.close ((c :: rest).take n)
      | .text (.unclosed _ _) => false
      | .symbol c => c == '\x60'
      | .word =>
        u.mayDirect d &&
          match u.directive? with
          | .ok (some _) => marked ((c :: rest).drop (lineLength (c :: rest)))
              ((c :: rest).take (lineLength (c :: rest)))
          | _ => false := by
  simp [misread, ahead, solid, begun]

theorem passable_gap {g : Gap} (ahead : s.cursor.ahead = c :: rest)
    (found : s.gap? draft c = some g) (length : g.length? = some n)
    (told : s.misread draft = false) :
    Passable (s.cursor.ahead.take n) (s.cursor.ahead.drop n) := by
  rw [misread_of_gap ahead found] at told
  rw [ahead]
  cases g with
  | blank =>
    cases length
    refine Or.inl ?_
    simp [marked, opensText_of_blank (blank_of_gap? found)]
  | delimiter k => cases length
  | terminator k =>
    cases length
    exact Or.inl told
  | comment extent =>
    cases extent with
    | unclosed => cases length
    | closed k =>
      cases length
      have comment := (comment_of_gap? found).2
      rw [ahead] at comment
      exact Or.inr (hidden_of_comment comment (by simpa using told))

theorem leads_of_delimiter (ahead : s.cursor.ahead = c :: rest)
    (found : s.gap? draft c = some (.delimiter n)) (told : s.misread draft = false)
    (moved : t.cursor.ahead = s.cursor.ahead.drop n) : s.Leads t := by
  rw [misread_of_gap ahead found] at told
  rw [← ahead] at told
  exact leads_of_skip moved (Or.inl told)

theorem leads_of_word (place : u.cursor = s.cursor)
    (moved : t.cursor.ahead = u.afterWord.cursor.ahead) : s.Leads t := by
  have ahead : t.cursor.ahead = s.cursor.ahead.drop u.word.length := by
    rw [moved, afterWord, skip_cursor, Cursor.skip_ahead, place]
  refine leads_of_skip ahead (Or.inl ?_)
  have whole : s.cursor.ahead.take u.word.length = u.word := by
    rw [← place]
    exact u.take_word
  rw [whole]
  exact marked_of_word (fun x mem => Context.isWordChar_of_mem_wordAhead mem)

/-- A character that is read for itself begins no text for the search, a backtick apart. -/
theorem opensText_of_symbol {dialect : Dialect} {p : Char → Bool} {x : Char}
    (searches : dialect.Searches) (token : dialect.token p c rest = .symbol x)
    (comment : dialect.comment? (c :: rest) = none) (back : c ≠ '\x60') :
    opensText c rest.head? = false := by
  have quote : isQuote c = false := by
    rw [token_searches searches] at token
    cases found : dialect.quote? c rest with
    | none => exact isQuote_of_none searches found back
    | some q =>
      rw [found] at token
      cases token
  rw [Bool.eq_false_iff]
  intro opens
  simp only [opensText, quote, Bool.false_or, Bool.or_eq_true, Bool.and_eq_true, beq_iff_eq] at opens
  rw [Dialect.comment?] at comment
  rcases opens with ⟨rfl, next⟩ | ⟨rfl, next⟩
  · obtain ⟨more, rfl⟩ := List.head?_eq_some_iff.mp next
    simp at comment
  · obtain ⟨more, rfl⟩ := List.head?_eq_some_iff.mp next
    simp at comment
    split at comment <;> cases comment

theorem step_leads (searches : s.dialect.Searches) (h : Step s draft t e)
    (told : s.misread draft = false) : s.Leads t := by
  cases h with
  | gap ahead found length =>
    exact leads_of_skip (Cursor.skip_ahead _ _) (passable_gap ahead found length told)
  | delimiter ahead found => exact leads_of_delimiter ahead found told (Cursor.skip_ahead _ _)
  | text ahead solid begun token =>
    rw [misread_of_begin ahead solid begun, token] at told
    obtain ⟨kind, rfl⟩ := begin_ok begun
    refine leads_of_skip (Cursor.skip_ahead _ _) ?_
    rw [ahead]
    exact Or.inr (hidden_of_text searches token told)
  | @symbol _ c rest _ _ ahead solid begun token =>
    rw [misread_of_begin ahead solid begun, token] at told
    obtain ⟨kind, rfl⟩ := begin_ok begun
    have comment := (gap?_eq_none_iff.mp solid).2.2.2
    rw [ahead] at comment
    have plain := opensText_of_symbol searches token comment (by simpa using told)
    rw [countParen_eq]
    have moved : ((s.cursor.skip 1).ahead) = s.cursor.ahead.drop 1 := Cursor.skip_ahead 1 _
    refine leads_of_skip moved (Or.inl ?_)
    rw [ahead]
    simp [marked, plain]
  | @directive _ _ _ u _ x ahead solid begun token may line =>
    rw [misread_of_begin ahead solid begun, token] at told
    simp only [may, line, Bool.true_and] at told
    have place := begin_cursor begun
    have moved := direct_ahead u x
    rw [place] at moved
    refine leads_of_skip moved (Or.inl ?_)
    rw [ahead]
    exact told
  | word ahead solid begun token plain taken =>
    obtain ⟨-, blocks, lastClosed, warnings, rfl⟩ := takeWord_more taken
    refine leads_of_word (begin_cursor begun) ?_
    rw [classify_eq]

theorem skip_all {k : Nat} (long : k = s.cursor.ahead.length) : (s.skip k).cursor.ahead = [] := by
  rw [skip_cursor, Cursor.skip_ahead, long, List.drop_length]

theorem unclosed_comment {dialect : Dialect} {construct : Construct}
    (found : dialect.comment? ahead = some (.unclosed construct n)) : n = ahead.length := by
  rw [Dialect.comment?] at found
  split at found
  · cases found
  · split at found
    · split at found
      · cases found
      · cases found
        rfl
    · cases found

theorem unclosed_text {dialect : Dialect} {p : Char → Bool} {construct : Construct}
    (searches : dialect.Searches) (token : dialect.token p c rest = .text (.unclosed construct n)) :
    n = (c :: rest).length := by
  rw [token_searches searches] at token
  split at token
  · next q _ =>
    simp only [Token.text.injEq, Quote.extent] at token
    split at token
    · cases token
    · cases token
      rfl
  · split at token <;> cases token

/-- A fault is met before the next token, after a word, or at the end of a text that is never
closed. -/
theorem failed_leads {fault : Fault} (searches : s.dialect.Searches)
    (h : s.pass draft = .failed t fault) : s.Leads t := by
  cases fails_of_pass h with
  | comment _ found =>
    exact leads_of_end (skip_all (unclosed_comment (comment_of_gap? found).2))
  | unclassified => exact leads_of_same rfl
  | @text _ _ u _ _ _ ahead _ begun token =>
    have place := begin_cursor begun
    rw [begin_dialect begun] at token
    have long := unclosed_text searches token
    rw [← ahead, ← place] at long
    exact leads_of_end (skip_all long)
  | directive _ _ begun => exact leads_of_word (begin_cursor begun) rfl
  | underflow _ _ begun => exact leads_of_word (begin_cursor begun) rfl
  | unclosed => exact leads_of_same rfl

theorem answer_leads (searches : s.dialect.Searches) (told : s.misread draft = false)
    (h : (s.pass draft).answer? = some (t, r)) : s.Leads t := by
  cases pass : s.pass draft with
  | more => simp [pass, Pass.answer?] at h
  | found v statement =>
    rw [pass] at h
    cases h
    obtain ⟨-, -, -, ⟨_, _, n, ahead, found, rfl⟩ | ⟨-, -, rfl⟩⟩ := pass_found pass
    · exact leads_of_delimiter ahead found told (Cursor.skip_ahead n _)
    · exact leads_of_same rfl
  | finished v =>
    rw [pass] at h
    cases h
    obtain ⟨-, -, -, rfl⟩ := pass_finished pass
    exact leads_of_same rfl
  | failed v fault =>
    rw [pass] at h
    cases h
    exact failed_leads searches pass

/-- Where reading leads without anything misread, the search passes all before alike. -/
theorem clear_of_agreed (h : Agreed s draft z f) (searches : s.dialect.Searches)
    (head : z.cursor.ahead.head? = some m) :
    ∃ p, s.cursor.ahead = p ++ z.cursor.ahead ∧ Clear m p := by
  have onward : ∀ {s t : Session} {p : List Char}, s.Leads t →
      t.cursor.ahead = p ++ z.cursor.ahead → Clear m p →
      ∃ p, s.cursor.ahead = p ++ z.cursor.ahead ∧ Clear m p := by
    rintro s t p ⟨w, split, passable⟩ ahead clear
    have more : t.cursor.ahead ≠ [] := by
      intro none
      rw [ahead, List.append_eq_nil_iff] at none
      rw [none.2] at head
      cases head
    have passable := passable more
    rw [ahead] at passable
    exact ⟨w ++ p, by rw [split, ahead, List.append_assoc], passable.clear head clear⟩
  induction h with
  | refl s draft => exact ⟨[], rfl, .nil⟩
  | @pass s t _ draft e f told pass _ ih =>
    have step := step_of_pass pass
    have searches' : t.dialect.Searches := by
      rw [step_dialect step]
      exact searches
    obtain ⟨p, ahead, clear⟩ := ih searches' head onward
    exact onward (step_leads searches step told) ahead clear
  | @call s t _ draft f r exhausted told answer _ ih =>
    have searches' : t.dialect.Searches := by
      rw [answer?_dialect answer]
      exact searches
    obtain ⟨p, ahead, clear⟩ := ih searches' head onward
    exact onward (answer_leads searches told answer) ahead clear

theorem hidden_of_whole (searches : s.dialect.Searches) (whole : s.whole? draft = some n)
    (told : s.misread draft = false) :
    Hidden (s.cursor.ahead.take n) (s.cursor.ahead.drop n) := by
  cases ahead : s.cursor.ahead with
  | nil => simp [whole?, ahead] at whole
  | cons c rest =>
    cases found : s.gap? draft c with
    | some g =>
      rw [misread_of_gap ahead found] at told
      simp only [whole?, ahead, found] at whole
      split at whole
      · next k same =>
        obtain rfl : g = .comment (.closed k) := Option.some.inj same
        obtain rfl : k = n := Option.some.inj whole
        have comment := (comment_of_gap? found).2
        rw [ahead] at comment
        exact hidden_of_comment comment (by simpa using told)
      · cases whole
      · next none => cases none
    | none =>
      cases begun : s.begin draft with
      | error fault => simp [whole?, ahead, found, begun] at whole
      | ok pair =>
        obtain ⟨u, d⟩ := pair
        rw [misread_of_begin ahead found begun] at told
        simp only [whole?, ahead, found, begun] at whole
        obtain ⟨kind, rfl⟩ := begin_ok begun
        split at whole
        · next k token =>
          obtain rfl : k = n := Option.some.inj whole
          rw [token] at told
          exact hidden_of_text searches token told
        · cases whole

/-- What the next pass takes as one is passed by the search as if it were not there. -/
theorem blind_of_whole {text after : List Char} (searches : s.dialect.Searches)
    (here : s.cursor.ahead = text ++ after) (whole : s.whole? draft = some text.length)
    (told : s.misread draft = false) :
    ∃ c, text.head? = some c ∧ isNameChar c = false ∧ Blind text after := by
  obtain ⟨c, cs, spelled, name, blind⟩ := hidden_of_whole searches whole told
  rw [here, List.take_left' rfl] at spelled
  rw [here, List.take_left' rfl, List.drop_left' rfl] at blind
  exact ⟨c, by rw [spelled]; rfl, name, blind after rfl⟩

theorem agreed_dialect (h : Agreed s draft z f) : z.dialect = s.dialect := by
  induction h with
  | refl => rfl
  | pass _ pass _ ih => exact ih.trans (step_dialect (step_of_pass pass))
  | @call s t z _ _ _ _ _ answer _ ih =>
    have same : z.dialect = t.dialect := ih
    exact same.trans (answer?_dialect answer)

/-- The session, with this text ahead instead. -/
def facing (s : Session) (ahead : List Char) : Session :=
  { s with cursor := { s.cursor with ahead } }

end Session

namespace BlockGrammar

theorem opens_of_search {grammar : BlockGrammar} {w : Word} (ctx : Context) {ahead : List Char}
    (next : Option String) (other : w.text ≠ "BEGIN")
    (same : ∀ keywords, nextKeyword? ahead keywords = nextKeyword? w.ahead keywords) :
    grammar.opens { w with ahead, next } ctx = grammar.opens w ctx :=
  opens_of_sought (fun text => absurd text other) fun keywords _ => same keywords

end BlockGrammar

namespace Session

variable {s s' t u u' z : Session} {draft draft' e f : Option Draft} {d d' : Draft}

/-- The same word is read in the same place of a statement, with this text after it. -/
structure SameWord (u : Session) (d : Draft) (u' : Session) (d' : Draft) (ahead : List Char) :
    Prop where
  dialect : u'.dialect = u.dialect
  context : u'.context = u.context
  text : u'.wordText = u.wordText
  previous : d'.previous = d.previous
  leading : d'.leading = d.leading
  clauseStart : d'.clauseStart = d.clauseStart
  ahead : u'.afterWord.cursor.ahead = ahead

theorem SameWord.scanned {ahead : List Char} (same : SameWord u d u' d' ahead) :
    u'.scanned d' = { u.scanned d with ahead, next := (u'.scanned d').next } := by
  simp only [Session.scanned, asWord, same.text, same.previous, same.leading, same.clauseStart,
    same.ahead]

/-- Where reading leads from a word to a text that is taken as one, and nothing up to that is
misread, the word opens a block if and only if it does so with any other such text in its
place. -/
theorem opens_of_replaced {p text text' after : List Char}
    (searches : s.dialect = .mysql ∨ s.dialect = .oracle) (scans : s.Scans draft u d)
    (searched : u.wordText ∈ ["IF", "PROCEDURE", "FUNCTION"]) (pass : s.pass draft = .more t e)
    (agreed : Agreed t e z f) (ahead : t.cursor.ahead = p ++ (text ++ after))
    (here : z.cursor.ahead = text ++ after) (whole : z.whole? f = some text.length)
    (told : z.misread f = false)
    (whole' : (z.facing (text' ++ after)).whole? f = some text'.length)
    (told' : (z.facing (text' ++ after)).misread f = false) (mark : text'.head? = text.head?)
    (scans' : s'.Scans draft' u' d') (same : SameWord u d u' d' (p ++ (text' ++ after))) :
    s'.Opens draft' u' ↔ s.Opens draft u := by
  have others : u.wordText ≠ "END" ∧ u.wordText ≠ "DELIMITER" ∧ u.wordText ≠ "BEGIN" := by
    simp only [List.mem_cons, List.not_mem_nil, or_false] at searched
    rcases searched with text | text | text <;> simp [text]
  obtain ⟨open_, plain, begins⟩ := others
  have taken := scans.pass open_ plain
  have word : (u.scanned d).ahead = p ++ (text ++ after) := by
    rw [taken] at pass
    cases pass
    rw [classify_eq, openBlock_eq] at ahead
    exact ahead
  have searched' : t.dialect.Searches := by
    rw [step_dialect (step_of_pass pass)]
    exact searches
  have there : z.dialect.Searches := by
    rw [agreed_dialect agreed]
    exact searched'
  obtain ⟨c, head, name, blind⟩ := blind_of_whole there here whole told
  obtain ⟨_, -, -, blind'⟩ :=
    blind_of_whole (s := z.facing (text' ++ after)) there rfl whole' told'
  have first : z.cursor.ahead.head? = some c := by rw [here, List.head?_append, head]; rfl
  obtain ⟨p', split, clear⟩ := clear_of_agreed agreed searched' first
  obtain rfl : p' = p := by
    rw [here, ahead] at split
    exact (List.append_cancel_right split).symm
  have search : ∀ keywords, nextKeyword? (p' ++ (text' ++ after)) keywords =
      nextKeyword? (u.scanned d).ahead keywords := by
    intro keywords
    rw [word]
    exact seekKeyword_replace clear name head (mark.trans head) blind blind' keywords 0
  rw [scans.opens_iff open_ plain, scans'.opens_iff (same.text ▸ open_) (same.text ▸ plain),
    same.dialect, same.context, same.scanned, BlockGrammar.opens_of_search _ _ begins search]

theorem agreed_follow {items : List Item} (n : Nat)
    (told : ∀ k < n, (follow k s draft items).1.misread (follow k s draft items).2.1 = false) :
    Agreed s draft (follow n s draft items).1 (follow n s draft items).2.1 := by
  induction n generalizing s draft items with
  | zero => exact .refl s draft
  | succ n ih =>
    have here : s.misread draft = false := told 0 (Nat.succ_pos n)
    have later : ∀ k < n, (follow (k + 1) s draft items).1.misread
        (follow (k + 1) s draft items).2.1 = false :=
      fun k less => told (k + 1) (Nat.succ_lt_succ less)
    simp only [follow] at later ⊢
    split
    · next pass =>
      simp only [pass] at later
      exact .pass here pass (ih later)
    · next pass =>
      simp only [pass] at later
      exact .pass here pass (ih later)
    · next t statement pass =>
      simp only [pass] at later
      exact .call t.exhausted here (by rw [pass]; rfl) (ih later)
    · next t pass =>
      simp only [pass] at later
      exact .call t.exhausted here (by rw [pass]; rfl) (ih later)
    · next t fault pass =>
      simp only [pass] at later
      exact .call t.exhausted here (by rw [pass]; rfl) (ih later)

/-- The literal of a condition has no part in it, even with an escaped quote. -/
theorem opens_of_replaced_condition :
    let script := "BEGIN IF a = 'x' THEN"
    let script' := "BEGIN IF a = 'it\\'s (;' THEN"
    let s := follow 2 (ofScript .mysql .semicolon script) none []
    let s' := follow 2 (ofScript .mysql .semicolon script') none []
    s.1.Opens s.2.1 s.1 ∧ s'.1.Opens s'.2.1 s'.1 := by
  intro script script' s s'
  let t := follow 3 (ofScript .mysql .semicolon script) none []
  let z := follow 5 t.1 t.2.1 []
  let d := (s.2.1).getD (.begin s.1.cursor)
  let d' := (s'.2.1).getD (.begin s'.1.cursor)
  let after := " THEN".toList
  let text := "'x'".toList
  let text' := "'it\\'s (;'".toList
  have dialect : s.1.dialect = .mysql := dialect_of_reached (reached_follow 2 .start)
  have dialect' : s'.1.dialect = .mysql := dialect_of_reached (reached_follow 2 .start)
  have scans : s.1.Scans s.2.1 s.1 d := ⟨by decide +kernel, by decide +kernel⟩
  have scans' : s'.1.Scans s'.2.1 s'.1 d' := ⟨by decide +kernel, by decide +kernel⟩
  have word : s.1.wordText = "IF" := by decide +kernel
  have pass : s.1.pass s.2.1 = .more t.1 t.2.1 := by decide +kernel
  have agreed : Agreed t.1 t.2.1 z.1 z.2.1 := by
    have told : ∀ k < 5, (follow k t.1 t.2.1 []).1.misread (follow k t.1 t.2.1 []).2.1 = false := by
      decide +kernel
    exact agreed_follow 5 told
  have ahead : t.1.cursor.ahead = " a = ".toList ++ (text ++ after) := by decide +kernel
  have here : z.1.cursor.ahead = text ++ after := by decide +kernel
  have one : z.1.whole? z.2.1 = some text.length ∧ z.1.misread z.2.1 = false := by decide +kernel
  have other : (z.1.facing (text' ++ after)).whole? z.2.1 = some text'.length ∧
      (z.1.facing (text' ++ after)).misread z.2.1 = false := by decide +kernel
  have fields : s'.1.context = s.1.context ∧ s'.1.wordText = s.1.wordText ∧
      d'.previous = d.previous ∧ d'.leading = d.leading ∧ d'.clauseStart = d.clauseStart ∧
      s'.1.afterWord.cursor.ahead = " a = ".toList ++ (text' ++ after) := by
    decide +kernel
  obtain ⟨context, text, previous, leading, clause, ahead'⟩ := fields
  have same : SameWord s.1 d s'.1 d' (" a = ".toList ++ (text' ++ after)) :=
    ⟨dialect'.trans dialect.symm, context, text, previous, leading, clause, ahead'⟩
  have replaced := opens_of_replaced (Or.inl dialect) scans (by rw [word]; decide) pass agreed
    ahead here one.1 one.2 other.1 other.2 rfl scans' same
  have opens : s.1.Opens s.2.1 s.1 := by decide +kernel
  exact ⟨opens, replaced.mpr opens⟩

/-- With a backslash as the default of its parameter, a procedure has no body for the search. -/
theorem opens_backslash_literal :
    let script := fun literal : String =>
      "CREATE PACKAGE BODY k AS PROCEDURE p(a VARCHAR2 := " ++ literal ++
        ") IS BEGIN NULL; END p; END k;\n/\n"
    let word := fun literal => follow 10 (ofScript .oracle .semicolon (script literal)) none []
    let text := fun literal => follow 21 (ofScript .oracle .semicolon (script literal)) none []
    ((text "'x'").1.whole? (text "'x'").2.1 = some 3 ∧
      (text "'\\'").1.whole? (text "'\\'").2.1 = some 3) ∧
    ((word "'x'").1.Opens (word "'x'").2.1 (word "'x'").1 ∧
      ¬ (word "'\\'").1.Opens (word "'\\'").2.1 (word "'\\'").1) ∧
    (splitFrom .oracle .semicolon (script "'x'")).isOk = true ∧
    splitFrom .oracle .semicolon (script "'\\'") = .error (.atLine 1 .blockUnderflow) := by
  decide +kernel

end Session

end SqlBoundary
