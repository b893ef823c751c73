import Mathlib.Data.List.Infix
import SqlBoundary.Proofs.Framed
import SqlBoundary.Proofs.Parallel
import SqlBoundary.Proofs.Phrases
import SqlBoundary.Proofs.Text

/-!
# Plain scripts

A script without quotes, comments and words that open or close blocks is words and symbols with
blanks between them. Reading it never fails: every pass takes a blank, a delimiter, a word or a
symbol, and no block is ever open. What is read of it between two delimiters is kept as it is, so
that a statement is that text, trimmed.
-/

namespace SqlBoundary

open Text Lexeme

/-- The text has none of these characters, no comment, and none of these words even as a part of
others, in any ASCII case. -/
structure Plain (marks : List Char) (words : List String) (cs : List Char) : Prop where
  unmarked : ∀ c ∈ cs, c ∉ marks
  dashes : ¬ ['-', '-'] <:+: cs
  slashes : ¬ ['/', '*'] <:+: cs
  wordless : ∀ word ∈ words, ¬ word.toList <:+: upper cs

instance (marks : List Char) (words : List String) (cs : List Char) :
    Decidable (Plain marks words cs) :=
  decidable_of_iff ((∀ c ∈ cs, c ∉ marks) ∧ ¬ ['-', '-'] <:+: cs ∧ ¬ ['/', '*'] <:+: cs ∧
      ∀ word ∈ words, ¬ word.toList <:+: upper cs)
    ⟨fun ⟨unmarked, dashes, slashes, wordless⟩ => ⟨unmarked, dashes, slashes, wordless⟩,
      fun h => ⟨h.unmarked, h.dashes, h.slashes, h.wordless⟩⟩

/-- A dialect whose statements never take another delimiter than that of the script. -/
structure Dialect.Steadfast (dialect : Dialect) : Prop where
  grammar : dialect.blocks ≠ .oracle
  terminator : dialect.standaloneTerminator = none
  kind : dialect.kind ≠ .unknown

theorem Vendor.steadfast {v : Vendor} (vendor : v ≠ .oracle) : v.dialect.Steadfast := by
  cases v with
  | oracle => exact absurd rfl vendor
  | generic => exact ⟨by decide, rfl, by decide⟩
  | mysql => exact ⟨by decide, rfl, by decide⟩
  | postgres => exact ⟨by decide, rfl, by decide⟩
  | sqlserver => exact ⟨by decide, rfl, by decide⟩

namespace Dialect

/-- The characters without which nothing is quoted and no comment begins with a hash. -/
def marks (dialect : Dialect) : List Char :=
  dialect.stringQuotes ++ dialect.identifierQuotes.map (·.1) ++
    (if dialect.escapeStrings then ['\''] else []) ++
    (if dialect.dollarQuotes then ['$'] else []) ++ if dialect.hashComments then ['#'] else []

variable {dialect : Dialect} {c : Char} {rest : List Char}

theorem dollarQuote?_of_unmarked (plain : c ∉ dialect.marks) :
    dialect.dollarQuote? c rest = none := by
  rw [dollarQuote?, if_neg]
  simp only [Bool.and_eq_true, beq_iff_eq]
  rintro ⟨dollars, rfl⟩
  exact plain (by simp [marks, dollars])

theorem quote?_of_unmarked (plain : ∀ x ∈ c :: rest, x ∉ dialect.marks) :
    dialect.quote? c rest = none := by
  have here := plain c List.mem_cons_self
  have escaped : ¬ (dialect.escapeStrings && (c == 'E' || c == 'e') && rest.head? == some '\'') =
      true := by
    simp only [Bool.and_eq_true, beq_iff_eq]
    rintro ⟨⟨escapes, -⟩, next⟩
    refine plain '\'' (List.mem_cons_of_mem c (List.mem_of_head? next)) ?_
    simp [marks, escapes]
  have literal : ¬ dialect.stringQuotes.contains c = true := by
    rw [List.contains_iff_mem]
    intro mem
    exact here (by simp [marks, mem])
  have identifier : dialect.identifierQuotes.find? (·.1 == c) = none := by
    rw [List.find?_eq_none]
    intro pair mem opens
    refine here ?_
    have opening : c ∈ dialect.identifierQuotes.map (·.1) := by
      rw [← beq_iff_eq.mp opens]
      exact List.mem_map_of_mem mem
    simp only [marks, List.mem_append]
    exact Or.inl (Or.inl (Or.inl (Or.inr opening)))
  rw [quote?, if_neg escaped, if_neg literal, identifierClose?, identifier]
  rfl

theorem comment?_of_unmarked (plain : c ∉ dialect.marks)
    (dashes : ¬ ['-', '-'] <+: c :: rest) (slashes : ¬ ['/', '*'] <+: c :: rest) :
    dialect.comment? (c :: rest) = none := by
  have line : ¬ (['-', '-'].isPrefixOf (c :: rest) ||
      (dialect.hashComments && (c :: rest).head? == some '#')) = true := by
    simp only [Bool.or_eq_true, Bool.and_eq_true, List.isPrefixOf_iff_prefix, beq_iff_eq,
      List.head?_cons, Option.some.injEq]
    rintro (begins | ⟨hashes, rfl⟩)
    · exact dashes begins
    · exact plain (by simp [marks, hashes])
  rw [comment?, if_neg line, if_neg]
  rw [List.isPrefixOf_iff_prefix]
  exact slashes

end Dialect

/-- A `BEGIN` before this text starts a transaction. -/
def Dialect.BeginsTransaction (dialect : Dialect) (after : List Char) : Prop :=
  ∀ ctx : Context, ctx.kind = dialect.kind →
    BlockGrammar.beginsTransaction (ctx.tokenAhead? after) = true

/-- A text of words and symbols, none of which opens or closes a block or is a directive. -/
structure Quiet (dialect : Dialect) (cs : List Char) : Prop where
  plain : Plain dialect.marks ["CASE", "END"] cs
  begins : ∀ before word after, cs = before ++ (word ++ after) →
    upper word = "BEGIN".toList → dialect.BeginsTransaction after
  undirected : dialect.delimiterDirective = true → ¬ "DELIMITER".toList <:+: upper cs

theorem Plain.quiet {dialect : Dialect} {marks : List Char} {words : List String} {cs : List Char}
    (plain : Plain marks words cs) (marked : ∀ c ∈ dialect.marks, c ∈ marks)
    (listed : ∀ word ∈ ["BEGIN", "CASE", "END"], word ∈ words)
    (directs : dialect.delimiterDirective = true → "DELIMITER" ∈ words) : Quiet dialect cs where
  plain := ⟨fun c mem mark => plain.unmarked c mem (marked c mark), plain.dashes, plain.slashes,
    fun word mem => plain.wordless word (listed word (List.mem_cons_of_mem _ mem))⟩
  begins := by
    rintro before word after rfl begin
    refine absurd ?_ (plain.wordless "BEGIN" (listed "BEGIN" List.mem_cons_self))
    rw [← begin, ← List.append_assoc]
    exact (List.infix_append before word after).map _
  undirected := fun directive => plain.wordless _ (directs directive)

theorem Quiet.suffix {dialect : Dialect} {cs piece rest : List Char} (h : Quiet dialect cs)
    (split : cs = piece ++ rest) : Quiet dialect rest := by
  have inside : rest <:+: cs := ⟨piece, [], by rw [split, List.append_nil]⟩
  have upper_ : upper rest <:+: upper cs := inside.map _
  refine ⟨⟨?_, ?_, ?_, ?_⟩, ?_, ?_⟩
  · exact fun c mem => h.plain.unmarked c (inside.subset mem)
  · exact fun found => h.plain.dashes (found.trans inside)
  · exact fun found => h.plain.slashes (found.trans inside)
  · exact fun word mem found => h.plain.wordless word mem (found.trans upper_)
  · intro before word after later
    exact h.begins (piece ++ before) word after (by rw [split, later, List.append_assoc])
  · exact fun directs found => h.undirected directs (found.trans upper_)

/-- A word read from such a text is none of those that have an effect. -/
theorem Quiet.word {dialect : Dialect} {cs piece rest : List Char} (h : Quiet dialect cs)
    (split : cs = piece ++ rest) : String.ofList (upper piece) ∉ ["CASE", "END"] ∧
      (String.ofList (upper piece) = "BEGIN" → dialect.BeginsTransaction rest) ∧
      (dialect.delimiterDirective = true → String.ofList (upper piece) ≠ "DELIMITER") := by
  have inside : ∀ word : String, String.ofList (upper piece) = word →
      word.toList <:+: upper cs := by
    rintro word rfl
    rw [String.toList_ofList, split]
    exact (List.prefix_append piece rest).isInfix.map _
  refine ⟨?_, ?_, ?_⟩
  · intro mem
    exact h.plain.wordless _ mem (inside _ rfl)
  · intro begin
    refine h.begins [] piece rest split ?_
    rw [← begin, String.toList_ofList]
  · intro directs same
    exact h.undirected directs (inside _ same)

theorem Dialect.isBlank_of_isWordChar {dialect : Dialect} {c : Char}
    (h : dialect.isWordChar c = true) : isBlank c = false := by
  let ctx : Context := { Context.start default with kind := dialect.kind }
  have word : ctx.isWordChar c = true := (dialect.isWordChar_eq rfl c).trans h
  exact SqlBoundary.isBlank_of_isWordChar word

theorem Context.wordAhead_uncut {ctx : Context} {cs : List Char} {k : Nat}
    (within : k < (ctx.wordAhead cs).length) : ctx.delimiter.startsAt (cs.drop k) = false := by
  induction cs generalizing k with
  | nil => simp [wordAhead] at within
  | cons c rest ih =>
    rw [wordAhead] at within
    split at within
    · next goes =>
      rw [Bool.and_eq_true, Bool.not_eq_true'] at goes
      cases k with
      | zero => exact goes.2
      | succ k => exact ih (Nat.lt_of_succ_lt_succ within)
    · exact absurd within (Nat.not_lt_zero k)

/-- The texts of the statements that come of these pieces: each is trimmed, and left out if that
leaves nothing. -/
def sqlTexts (pieces : List (List Char)) : List String :=
  ((pieces.map trim).filter (!·.isEmpty)).map String.ofList

theorem trim_of_blank {cs : List Char} (blank : ∀ c ∈ cs, isBlank c = true) : trim cs = [] := by
  have nothing : trimStart cs = [] := by
    rw [trimStart, List.dropWhile_eq_nil_iff]
    exact blank
  rw [trim, nothing]
  rfl

theorem trim_append_of_blank {lead : List Char} (blank : ∀ c ∈ lead, isBlank c = true)
    (cs : List Char) : trim (lead ++ cs) = trim cs := by
  rw [trim, trim, trimStart, trimStart, List.dropWhile_append_of_pos blank]

/-- Blanks at the end of a piece make no difference. -/
theorem trim_append {blanks : List Char} (blank : ∀ c ∈ blanks, isBlank c = true)
    (cs : List Char) : trim (cs ++ blanks) = trim cs := by
  by_cases all : ∀ c ∈ cs, isBlank c = true
  · rw [trim_of_blank all, trim_append_of_blank all, trim_of_blank blank]
  · have stays : trimStart (cs ++ blanks) = trimStart cs ++ blanks := by
      rw [trimStart, List.dropWhile_append, if_neg]
      · rfl
      · rw [List.isEmpty_iff, List.dropWhile_eq_nil_iff]
        exact all
    rw [trim, stays, trimEnd_append blank, trim]

namespace Session

variable {s t u : Session} {draft e : Option Draft} {x y : Draft} {dialect : Dialect}
variable {d : Delimiter} {c : Char} {rest b : List Char}

theorem skip_one_ahead (ahead : s.cursor.ahead = c :: rest) : (s.skip 1).cursor.ahead = rest := by
  rw [skip_cursor, Cursor.skip_ahead, ahead]
  rfl

theorem pass_of_word (ahead : s.cursor.ahead = c :: rest) (solid : s.gap? draft c = none)
    (begun : s.begin draft = .ok (u, x)) (dollar : s.dialect.dollarQuote? c rest = none)
    (quote : s.dialect.quote? c rest = none) (starts : u.context.startsWord c = true) :
    s.pass draft = u.readWord x := by
  have token : u.dialect.token u.context.startsWord c rest = .word := by
    rw [begin_dialect begun, Dialect.token, dollar, quote, starts]
    rfl
  rw [pass_of_begin ahead solid begun, readToken, token]

theorem pass_of_symbol (ahead : s.cursor.ahead = c :: rest) (solid : s.gap? draft c = none)
    (begun : s.begin draft = .ok (u, x)) (dollar : s.dialect.dollarQuote? c rest = none)
    (quote : s.dialect.quote? c rest = none) (other : u.context.startsWord c = false) :
    s.pass draft = .more ((u.skip 1).countParen c) (some (x.afterSymbol c rest)) := by
  have token : u.dialect.token u.context.startsWord c rest = .symbol c := by
    rw [begin_dialect begun, Dialect.token, dollar, quote, other]
    rfl
  rw [pass_of_begin ahead solid begun, readToken, token]

/-- Outside blocks such a word opens none and closes none. -/
theorem takeWord_quiet {text : String} (outside : s.context.blocks = [])
    (grammar : s.dialect.blocks ≠ .oracle) (plain : text ∉ ["CASE", "END"])
    (begins : text = "BEGIN" →
      BlockGrammar.beginsTransaction (s.context.tokenAhead? s.cursor.ahead) = true) :
    s.takeWord x text = .more s (some (x.afterWord text)) := by
  simp only [List.mem_cons, List.not_mem_nil, or_false, not_or] at plain
  obtain ⟨case_, end_⟩ := plain
  have opens : s.dialect.blocks.opens
      (s.asWord x text (s.context.tokenAhead? s.cursor.ahead)) s.context = false := by
    by_cases begin_ : text = "BEGIN"
    · rw [BlockGrammar.opens_eq_of_begin begin_, Bool.not_eq_false']
      exact begins begin_
    cases blocks : s.dialect.blocks with
    | oracle => exact absurd blocks grammar
    | common => simp [BlockGrammar.opens, BlockGrammar.opensCommon, asWord]
    | mysql =>
      simp [BlockGrammar.opens, BlockGrammar.opensCommon, BlockGrammar.opensControlFlow, asWord,
        Context.blockDepth, outside]
  have asks : x.asks s.dialect.blocks text = none := by
    rw [Option.eq_none_iff_forall_ne_some]
    intro slash asked
    exact grammar (asks_eq_some asked).1
  rw [takeWord_name end_ asks, opens]
  rfl

theorem onward_of_more (hc : s.Classified draft) (h : s.pass draft = .more t e) :
    s.onward draft = t.onward e := by
  rw [onward, onward, read_of_more hc h]

theorem onward_of_passes (hc : s.Classified draft) (h : Passes s draft t e) :
    s.onward draft = t.onward e := by
  rw [onward, onward, read_of_passes h hc]

theorem onward_of_failed {fault : Fault} (h : s.pass draft = .failed t fault) :
    s.onward draft = .error fault := by
  have answer : s.read draft = (t, .error fault) := read_of_answer (by rw [h]; rfl)
  rw [onward, answer]

theorem onward_of_found {statement : Statement} (live : t.exhausted = false)
    (h : s.pass draft = .found t statement) :
    s.onward draft = (t.onward none).map (statement :: ·) := by
  have answer : s.read draft = (t, .ok (some statement)) := read_of_answer (by rw [h]; rfl)
  rw [onward_none live, onward, answer]

theorem onward_of_finished (h : s.pass draft = .finished t) : s.onward draft = .ok [] := by
  have answer : s.read draft = (t, .ok none) := read_of_answer (by rw [h]; rfl)
  rw [onward, answer]

/-- A script that is quiet from here on is read outside blocks, with one delimiter. -/
structure Calm (dialect : Dialect) (d : Delimiter) (s : Session) (draft : Option Draft) : Prop where
  kind : draft.isSome = true → s.context.kind = dialect.kind
  quiet : Quiet dialect s.cursor.ahead
  dialect : s.dialect = dialect
  delimiter : s.context.delimiter = d
  script : s.scriptDelimiter = d
  outside : s.context.blocks = []
  live : s.exhausted = false

/-- The token ahead, and the depth of parentheses after it. -/
inductive Takes (dialect : Dialect) (d : Delimiter) (s : Session) : List Char → Int32 → Prop
  | word {piece : List Char} (nonempty : piece ≠ [])
      (letters : ∀ x ∈ piece, dialect.isWordChar x = true)
      (uncut : ∀ k < piece.length, d.startsAt (s.cursor.ahead.drop k) = false) :
      Takes dialect d s piece s.context.parens
  | symbol {c : Char} (solid : isBlank c = false) :
      Takes dialect d s [c] (parensAfter s.context.parens c)

theorem Takes.solid {piece : List Char} {parens : Int32} (h : Takes dialect d s piece parens) :
    ∀ x ∈ piece, isBlank x = false := by
  intro x mem
  cases h with
  | word _ letters =>
    exact Dialect.isBlank_of_isWordChar (letters x mem)
  | symbol solid =>
    rw [List.mem_singleton.mp mem]
    exact solid

theorem Takes.first {piece : List Char} {parens : Int32} (h : Takes dialect d s piece parens) :
    ∃ c more, piece = c :: more ∧ isBlank c = false := by
  have nonempty : piece ≠ [] := by
    cases h with
    | word nonempty => exact nonempty
    | symbol => exact List.cons_ne_nil _ []
  obtain ⟨c, more, rfl⟩ := List.exists_cons_of_ne_nil nonempty
  exact ⟨c, more, rfl, h.solid c List.mem_cons_self⟩

theorem Takes.move {piece : List Char} {parens : Int32} (h : Takes dialect d u piece parens)
    (place : u.cursor = s.cursor) (level : u.context.parens = s.context.parens) :
    Takes dialect d s piece parens := by
  cases h with
  | word nonempty letters uncut =>
    rw [level]
    exact .word nonempty letters (place ▸ uncut)
  | symbol solid =>
    rw [level]
    exact .symbol solid

theorem Calm.classified (steadfast : dialect.Steadfast) (calm : Calm dialect d s draft) :
    s.Classified draft := by
  refine classified_of_grammar ?_
  rw [calm.dialect]
  exact steadfast.grammar

theorem Calm.skip (calm : Calm dialect d s draft) (n : Nat) (h : e.isSome = true →
    s.context.kind = dialect.kind) : Calm dialect d (s.skip n) e where
  dialect := calm.dialect
  delimiter := calm.delimiter
  script := calm.script
  outside := calm.outside
  live := calm.live
  kind := h
  quiet := by
    have split : s.cursor.ahead = s.cursor.ahead.take n ++ (s.skip n).cursor.ahead := by
      rw [skip_cursor, Cursor.skip_ahead, List.take_append_drop]
    exact calm.quiet.suffix split

theorem Calm.restored (calm : Calm dialect d s draft) : Calm dialect d s.restored none where
  dialect := calm.dialect
  delimiter := calm.script
  script := calm.script
  outside := calm.outside
  live := calm.live
  kind := nofun
  quiet := calm.quiet

/-- No gap and no quoted text begins there. -/
theorem Calm.bare (steadfast : dialect.Steadfast) (calm : Calm dialect d s draft)
    (ahead : s.cursor.ahead = c :: rest) (solid : isBlank c = false)
    (on : s.delimiterLength? = none) :
    s.gap? draft c = none ∧ s.dialect.dollarQuote? c rest = none ∧
      s.dialect.quote? c rest = none := by
  have quiet : Quiet dialect (c :: rest) := ahead ▸ calm.quiet
  have unmarked : ∀ x ∈ c :: rest, x ∉ dialect.marks := quiet.plain.unmarked
  have comment : dialect.comment? (c :: rest) = none :=
    Dialect.comment?_of_unmarked (unmarked c List.mem_cons_self)
      (fun begins => quiet.plain.dashes begins.isInfix)
      (fun begins => quiet.plain.slashes begins.isInfix)
  refine ⟨gap?_eq_none_iff.mpr ⟨solid, on, ?_, by rw [ahead, calm.dialect, comment]⟩, ?_, ?_⟩
  · intro _
    rw [atTerminator, calm.dialect, steadfast.terminator]
    rfl
  · rw [calm.dialect]
    exact Dialect.dollarQuote?_of_unmarked (unmarked c List.mem_cons_self)
  · rw [calm.dialect]
    exact Dialect.quote?_of_unmarked unmarked

/-- A statement has its kind from its first token on. -/
theorem Calm.begin (steadfast : dialect.Steadfast) (calm : Calm dialect d s draft) :
    ∃ u x, s.begin draft = .ok (u, x) ∧ x.start = (draft.map (·.start)).getD s.cursor ∧
      u.context.parens = s.context.parens ∧ Calm dialect d u (some x) := by
  cases draft with
  | some x => exact ⟨s, x, rfl, rfl, rfl, calm⟩
  | none =>
    refine ⟨_, _, begin_eq_ok_iff.mpr (Or.inr ⟨rfl, ?_, rfl, rfl⟩), rfl, rfl, ?_⟩
    · rw [calm.dialect]
      exact steadfast.kind
    · exact ⟨fun _ => congrArg Dialect.kind calm.dialect, calm.quiet, calm.dialect,
        calm.delimiter, calm.script, calm.outside, calm.live⟩

theorem Calm.countParen (calm : Calm dialect d s draft) (c : Char) :
    Calm dialect d (s.countParen c) draft := by
  rw [countParen_eq]
  exact ⟨calm.kind, calm.quiet, calm.dialect, calm.delimiter, calm.script, calm.outside, calm.live⟩

/-- A word that neither opens a block nor closes one is taken as it is. -/
theorem Calm.takes_word {x : Draft} (steadfast : dialect.Steadfast)
    (calm : Calm dialect d s (some x)) (ahead : s.cursor.ahead = c :: rest)
    (starts : dialect.startsWord c = true) (spared : d.startsAt (c :: rest) = false) :
    s.readWord x = .more s.afterWord (some (x.afterWord s.wordText)) ∧
      Takes dialect d s s.word s.context.parens := by
  have kind := calm.kind rfl
  obtain ⟨plain, begins, undirected⟩ := calm.quiet.word s.ahead_eq_word_append
  refine ⟨?_, .word ?_ ?_ ?_⟩
  · have may : ¬ s.mayDirect x = true := by
      rw [mayDirect_iff, calm.dialect]
      rintro ⟨-, directive, directs⟩
      exact undirected directs directive
    have grammar : s.afterWord.dialect.blocks ≠ .oracle := by
      rw [afterWord, show (s.skip s.word.length).dialect = s.dialect from rfl, calm.dialect]
      exact steadfast.grammar
    rw [readWord_eq, if_neg may]
    exact takeWord_quiet calm.outside grammar plain fun begin => begins begin s.context kind
  · have letter : s.context.isWordChar c = true := by
      rw [dialect.isWordChar_eq kind, Dialect.isWordChar, starts, Bool.true_or]
    rw [word, ahead, Context.wordAhead, calm.delimiter, letter, spared]
    exact List.cons_ne_nil _ _
  · intro z mem
    rw [← dialect.isWordChar_eq kind]
    exact Context.isWordChar_of_mem_wordAhead mem
  · intro k within
    rw [← calm.delimiter]
    exact Context.wordAhead_uncut within

/-- Before a token that the delimiter does not cut away the statement goes on with it. -/
theorem Calm.token (steadfast : dialect.Steadfast) (calm : Calm dialect d s draft)
    (ahead : s.cursor.ahead = c :: rest) (solid : isBlank c = false)
    (on : s.delimiterLength? = none)
    (spared : dialect.startsWord c = true → d.startsAt (c :: rest) = false) :
    ∃ t y piece, s.pass draft = .more t (some y) ∧ Takes dialect d s piece t.context.parens ∧
      s.cursor.ahead = piece ++ t.cursor.ahead ∧ t.cursor = s.cursor.skip piece.length ∧
      y.start = (draft.map (·.start)).getD s.cursor ∧ Calm dialect d t (some y) := by
  obtain ⟨gap, dollar, quote⟩ := calm.bare steadfast ahead solid on
  obtain ⟨u, x, begun, start, level, calm'⟩ := calm.begin steadfast
  have begins := dialect.startsWord_eq (calm'.kind rfl) c
  have place : u.cursor = s.cursor := begin_cursor begun
  cases starts : dialect.startsWord c with
  | false =>
    refine ⟨_, _, [c], pass_of_symbol ahead gap begun dollar quote (begins.trans starts), ?_⟩
    have moved : ((u.skip 1).countParen c).cursor = s.cursor.skip 1 := by
      rw [countParen_eq, ← place]
      rfl
    have takes : Takes dialect d u [c] ((u.skip 1).countParen c).context.parens := by
      rw [countParen_eq]
      exact .symbol solid
    refine ⟨takes.move place level, ?_, moved, start,
      (calm'.skip 1 fun _ => calm'.kind rfl).countParen c⟩
    rw [moved, Cursor.skip_ahead, ahead]
    rfl
  | true =>
    have ahead' : u.cursor.ahead = c :: rest := by rw [place, ahead]
    obtain ⟨taken, takes⟩ := calm'.takes_word steadfast ahead' starts (spared starts)
    have pass := pass_of_word ahead gap begun dollar quote (begins.trans starts)
    have moved : u.afterWord.cursor = s.cursor.skip u.word.length := by rw [← place]; rfl
    refine ⟨u.afterWord, _, u.word, pass.trans taken, takes.move place level, ?_, moved, start,
      calm'.skip _ calm'.kind⟩
    rw [← place]
    exact u.ahead_eq_word_append

/-- The text `b` has been read since the last delimiter. It is blank, or it holds the statement
being read and only blanks before that. -/
inductive Pending (s : Session) : Option Draft → List Char → Prop
  | blank {before b : List Char} (place : s.cursor = .between before s.cursor.ahead)
      (blank : ∀ c ∈ b, isBlank c = true) : Pending s none b
  | begun {before lead text : List Char} {x : Draft}
      (place : s.cursor = .between (before ++ text) s.cursor.ahead)
      (start : x.start = .between before (text ++ s.cursor.ahead))
      (blank : ∀ c ∈ lead, isBlank c = true) (solid : ∃ c rest, text = c :: rest ∧
        isBlank c = false) : Pending s (some x) (lead ++ text)

theorem Pending.place (h : Pending s draft b) :
    ∃ before, s.cursor = .between before s.cursor.ahead := by
  cases h with
  | blank place => exact ⟨_, place⟩
  | begun place => exact ⟨_, place⟩

/-- Blanks before a statement make no difference. -/
theorem Pending.clear (h : Pending s none b) : Pending s none [] := by
  cases h with
  | blank place => exact .blank place (List.forall_mem_nil _)

theorem Pending.blank_step (h : Pending s draft b) (ahead : s.cursor.ahead = c :: rest)
    (blank : isBlank c = true) : Pending (s.skip 1) draft (b ++ [c]) := by
  have moved : ∀ {passed : List Char}, s.cursor = .between passed s.cursor.ahead →
      (s.skip 1).cursor = .between (passed ++ [c]) (s.skip 1).cursor.ahead := by
    intro passed place
    have here := skip_place place 1
    rw [skip_cursor, Cursor.skip_ahead, here, ahead]
    rfl
  have left : s.cursor.ahead = [c] ++ (s.skip 1).cursor.ahead := by
    rw [skip_cursor, Cursor.skip_ahead, ahead]
    rfl
  cases h with
  | blank place blanks =>
    refine .blank (moved place) ?_
    intro z mem
    rcases List.mem_append.mp mem with mem | mem
    · exact blanks z mem
    · rw [List.mem_singleton.mp mem]
      exact blank
  | @begun before lead text x place start blanks solid =>
    obtain ⟨z, more, rfl, solid⟩ := solid
    rw [List.append_assoc]
    have here := moved place
    rw [List.append_assoc] at here
    refine .begun here ?_ blanks ⟨z, more ++ [c], rfl, solid⟩
    rw [start, left, List.append_assoc]

theorem Pending.token_step {piece : List Char} (h : Pending s draft b)
    (split : s.cursor.ahead = piece ++ t.cursor.ahead)
    (moved : t.cursor = s.cursor.skip piece.length)
    (start : y.start = (draft.map (·.start)).getD s.cursor)
    (solid : ∃ c more, piece = c :: more ∧ isBlank c = false) :
    Pending t (some y) (b ++ piece) := by
  have place : ∀ {passed : List Char}, s.cursor = .between passed s.cursor.ahead →
      t.cursor = .between (passed ++ piece) t.cursor.ahead := by
    intro passed place
    have here := skip_place place piece.length
    rw [moved, here, split, List.take_left, List.drop_left]
    rfl
  cases h with
  | @blank before b here blanks =>
    refine .begun (place here) ?_ blanks solid
    rw [start, ← split]
    exact here
  | @begun before lead text x here begins blanks first =>
    obtain ⟨z, more, rfl, first⟩ := first
    rw [List.append_assoc]
    have there := place here
    rw [List.append_assoc] at there
    refine .begun there ?_ blanks ⟨z, more ++ piece, rfl, first⟩
    rw [start, List.append_assoc, ← split]
    exact begins

/-- Behind a delimiter nothing is pending. -/
theorem Pending.behind (h : Pending s draft b) (n : Nat) :
    Pending (s.skip n).restored none [] := by
  obtain ⟨before, place⟩ := h.place
  have left : (s.skip n).restored.cursor.ahead = s.cursor.ahead.drop n := Cursor.skip_ahead _ _
  have here : (s.skip n).restored.cursor =
      .between (before ++ s.cursor.ahead.take n) (s.skip n).restored.cursor.ahead := by
    rw [left]
    exact skip_place place n
  exact .blank here (List.forall_mem_nil _)

/-- What is pending makes a statement unless it is blank. -/
theorem Pending.cut (h : Pending s draft b) (after : List (List Char)) :
    sqlTexts (b :: after) =
      (draft.map fun x => (s.cut x s.cursor).sql).toList ++ sqlTexts after := by
  cases h with
  | blank _ blanks =>
    simp [sqlTexts, trim_of_blank blanks]
  | @begun before lead text x place start blanks solid =>
    obtain ⟨c, more, rfl, solid⟩ := solid
    obtain ⟨rest, kept⟩ := trimEnd_cons solid more
    have trimmed : trim (lead ++ c :: more) = trimEnd (c :: more) := by
      rw [trim_append_of_blank blanks]
      refine trim_of_solid ?_
      rintro z ⟨⟩
      exact solid
    have text : x.start.upTo s.cursor = c :: more := by
      have here := Cursor.upTo_between before (c :: more) s.cursor.ahead
      rw [start]
      conv => lhs; arg 2; rw [place]
      exact here
    have sql : (s.cut x s.cursor).sql = String.ofList (trimEnd (c :: more)) := by
      rw [Session.cut, text]
    simp [sqlTexts, trimmed, sql, kept]

/-- From here on the script is split without a fault, and these are the pieces its statements are
the texts of. -/
def Yields (s : Session) (draft : Option Draft) (pieces : List (List Char)) : Prop :=
  ∃ statements, s.onward draft = .ok statements ∧ statements.map (·.sql) = sqlTexts pieces

variable {pieces : List (List Char)}

theorem yields_of_more (hc : s.Classified draft) (h : s.pass draft = .more t e)
    (later : t.Yields e pieces) : s.Yields draft pieces := by
  obtain ⟨statements, answer, texts⟩ := later
  exact ⟨statements, (onward_of_more hc h).trans answer, texts⟩

theorem yields_of_passes (hc : s.Classified draft) (h : Passes s draft t e)
    (later : t.Yields e pieces) : s.Yields draft pieces := by
  obtain ⟨statements, answer, texts⟩ := later
  exact ⟨statements, (onward_of_passes hc h).trans answer, texts⟩

theorem Yields.congr {pieces' : List (List Char)} (h : s.Yields draft pieces)
    (same : sqlTexts pieces = sqlTexts pieces') : s.Yields draft pieces' := by
  obtain ⟨statements, answer, texts⟩ := h
  exact ⟨statements, answer, texts.trans same⟩

theorem yields_of_blank (hc : s.Classified draft) (ahead : s.cursor.ahead = c :: rest)
    (blank : isBlank c = true) (later : (s.skip 1).Yields draft pieces) :
    s.Yields draft pieces := by
  have gap : s.gap? draft c = some .blank := by rw [gap?, if_pos blank]
  exact yields_of_more hc (pass_of_gap ahead gap) later

/-- At the end of the script what is pending is the last piece. -/
theorem yields_of_end (outside : s.context.blocks = []) (live : s.exhausted = false)
    (pending : Pending s draft b) (ahead : s.cursor.ahead = []) : s.Yields draft [b] := by
  have last : s.restored.onward none = .ok [] := by
    refine onward_of_finished (t := s.restored.restored) ?_
    rw [pass_of_end (show s.restored.cursor.ahead = [] from ahead),
      finish_outside (show s.restored.context.blocks = [] from outside)]
  have finish := (pass_of_end ahead).trans (finish_outside outside draft)
  cases draft with
  | none => exact ⟨[], onward_of_finished finish, (pending.cut []).symm⟩
  | some x =>
    refine ⟨[s.cut x s.cursor], ?_, (pending.cut []).symm⟩
    have open_ : s.restored.exhausted = false := live
    rw [onward_of_found open_ finish, last]
    rfl

/-- Before a delimiter what is pending is a piece, and the next one begins behind it. -/
theorem yields_of_delimiter {n : Nat} (hc : s.Classified draft) (live : s.exhausted = false)
    (pending : Pending s draft b) (ahead : s.cursor.ahead = c :: rest) (solid : isBlank c = false)
    (active : s.delimiterLength? = some n)
    (later : (s.skip n).restored.Yields none pieces) : s.Yields draft (b :: pieces) := by
  obtain ⟨statements, answer, texts⟩ := later
  cases draft with
  | none =>
    have gap : s.gap? none c = some (.delimiter n) := by
      rw [gap?, solid, active]
      rfl
    refine ⟨statements, ?_, texts.trans (pending.cut pieces).symm⟩
    rw [onward_of_more hc (pass_of_gap ahead gap)]
    exact answer
  | some x =>
    refine ⟨s.cut x s.cursor :: statements, ?_, ?_⟩
    · have open_ : (s.skip n).restored.exhausted = false := live
      rw [onward_of_found open_ (pass_of_delimiter ahead solid active), answer]
      rfl
    · rw [pending.cut, ← texts]
      rfl

/-- A quiet script is split as it is read from its start. -/
theorem splitFrom_of_yields {script : String} (quiet : Quiet dialect script.toList)
    (h : ∀ s : Session, Calm dialect d s none → Pending s none [] → s.context.parens = 0 →
      s.cursor = .start script.toList → s.Yields none pieces) :
    ∃ statements, splitFrom dialect d script = .ok statements ∧
      statements.map (·.sql) = sqlTexts pieces := by
  have start : (ofScript dialect d script).cursor = .between [] script.toList := rfl
  obtain ⟨statements, answer, texts⟩ := h (.ofScript dialect d script)
    ⟨nofun, quiet, rfl, rfl, rfl, rfl, rfl⟩ (.blank start (List.forall_mem_nil _)) rfl rfl
  exact ⟨statements, (onward_none rfl).symm.trans answer, texts⟩

end Session

end SqlBoundary
