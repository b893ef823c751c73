import SqlBoundary.Proofs.EndTail
import SqlBoundary.Proofs.Framed
import SqlBoundary.Proofs.Phrases
import SqlBoundary.Proofs.Pieces
import SqlBoundary.Proofs.Reachable

/-!
# Starts of transactions

A `BEGIN` opens no block if the token after it is a semicolon or one of the words that start a
transaction. This token is looked up to the end of its word characters, while a word that is
read ends where the active delimiter begins. So where a delimiter ends the start of a
transaction, the grammar may see another token, or no end at all: `opens_begin_iff` says
exactly when a `BEGIN` before a delimiter opens a block, and that the statement ends at this
delimiter if it opens none.

A whole script of plain statements and transactions has the same statements with another delimiter
in the place of its own, as long as that one too leaves the words that start a transaction alone.
-/

namespace SqlBoundary

open Text Lexeme

theorem toUpper_of_not_isAlpha {c : Char} (other : c.isAlpha = false) : c.toUpper = c := by
  delta Char.toUpper
  rw [dif_neg]
  intro range
  have letter : c.isAlpha = true := by
    delta Char.isAlpha Char.isLower
    simp only [Bool.or_eq_true, Bool.and_eq_true, decide_eq_true_eq]
    exact Or.inr range
  rw [other] at letter
  cases letter

theorem isAlpha_toUpper (c : Char) : c.toUpper.isAlpha = c.isAlpha := by
  by_cases inside : inIdentifier c = true
  · have all : ∀ n < 128, (Char.ofNat n).toUpper.isAlpha = (Char.ofNat n).isAlpha := by
      decide +kernel
    have here := all c.toNat (toNat_lt_of_inIdentifier inside)
    rw [Char.ofNat_toNat] at here
    exact here
  · have other : c.isAlpha = false := by
      rw [Bool.eq_false_iff]
      intro letter
      exact inside (by simp [inIdentifier, Char.isAlphanum, letter])
    rw [toUpper_of_not_isAlpha other]

/-- Letters make an identifier. -/
theorem spelled_of_letters {word : List Char} {text : String}
    (same : String.ofList (upper word) = text) (long : 0 < text.toList.length)
    (letters : ∀ c ∈ text.toList, c.isAlpha = true) : Spelled word text := by
  subst same
  rw [String.toList_ofList] at long letters
  have letter : ∀ c ∈ word, c.isAlpha = true := by
    intro c mem
    rw [← isAlpha_toUpper]
    exact letters c.toUpper (List.mem_map_of_mem mem)
  cases word with
  | nil => cases long
  | cons c rest =>
    refine ⟨⟨c, rest, rfl, ?_⟩, ?_, rfl⟩
    · simp [beginsIdentifier, letter c List.mem_cons_self]
    · intro x mem
      simp [inIdentifier, Char.isAlphanum, letter x mem]

namespace BlockGrammar

/-- The words that make a `BEGIN` before them start a transaction. -/
def transactionKeywords : List String :=
  ["TRANSACTION", "TRAN", "WORK", "DEFERRED", "IMMEDIATE", "EXCLUSIVE", "DISTRIBUTED",
   "ISOLATION", "READ"]

theorem letters_of_keyword {text : String} (keyword : text ∈ transactionKeywords) :
    1 < text.toList.length ∧ ∀ c ∈ text.toList, c.isAlpha = true := by
  revert text
  decide

theorem spelled_of_keyword {word : List Char}
    (keyword : String.ofList (upper word) ∈ transactionKeywords) :
    Spelled word (String.ofList (upper word)) := by
  obtain ⟨long, letters⟩ := letters_of_keyword keyword
  exact spelled_of_letters rfl (Nat.zero_lt_of_lt long) letters

/-- The word characters ahead where such a word stands, or none. -/
theorem takeWhile_keyword {p : Char → Bool} {word behind : List Char}
    (hp : ∀ c, inIdentifier c = true → p c = true)
    (starts : word = [] ∨ String.ofList (upper word) ∈ transactionKeywords) :
    (word ++ behind).takeWhile p = word ++ behind.takeWhile p := by
  apply List.takeWhile_append_of_pos
  intro c mem
  rcases starts with rfl | keyword
  · cases mem
  · exact hp c ((spelled_of_keyword keyword).inside c mem)

/-- The words of transactions do nothing of their own. -/
theorem plain_of_keyword {text : String} (keyword : text ∈ transactionKeywords) :
    text ≠ "END" ∧ text ≠ "DELIMITER" ∧ text ∉ unitWords ∧
      ∀ grammar : BlockGrammar, text ∉ grammar.openers := by
  have all : ∀ text ∈ transactionKeywords, text ≠ "END" ∧ text ≠ "DELIMITER" ∧ text ∉ unitWords ∧
      text ∉ openers .common ∧ text ∉ openers .mysql ∧ text ∉ openers .oracle := by
    decide
  obtain ⟨notEnd, undirected, noUnit, common, mysql, oracle⟩ := all text keyword
  refine ⟨notEnd, undirected, noUnit, ?_⟩
  intro grammar
  cases grammar with
  | common => exact common
  | mysql => exact mysql
  | oracle => exact oracle

end BlockGrammar

namespace Context

variable {ctx : Context} {ahead rest : List Char} {c : Char}

/-- The next token makes a `BEGIN` start a transaction if it is a semicolon, or if the word
characters ahead are such a word. -/
theorem beginsTransaction_iff (next : trimStart ahead = c :: rest) :
    BlockGrammar.beginsTransaction (ctx.tokenAhead? ahead) = true ↔ c = ';' ∨
      String.ofList (upper ((c :: rest).takeWhile ctx.isWordChar)) ∈
        BlockGrammar.transactionKeywords := by
  have known : ∀ text, BlockGrammar.beginsTransaction (some text) = true ↔
      text = ";" ∨ text ∈ BlockGrammar.transactionKeywords := by
    intro text
    simp only [BlockGrammar.beginsTransaction, BlockGrammar.transactionWords,
      BlockGrammar.transactionKeywords, List.contains_eq_mem, List.mem_cons, decide_eq_true_eq]
  have semicolon : ctx.isWordChar ';' = false := (endsWord_char (Or.inr (by decide)) ctx).1
  simp only [tokenAhead?, next]
  by_cases begins : ctx.startsWord c = true
  · have inside : ctx.isWordChar c = true := by
      simp only [startsWord, Bool.or_eq_true] at begins
      simp only [isWordChar, Bool.or_eq_true]
      exact begins.imp_left Or.inl
    have other : c ≠ ';' := by
      rintro rfl
      rw [semicolon] at inside
      cases inside
    have apart : String.ofList (upper (c :: rest.takeWhile ctx.isWordChar)) ≠ ";" := by
      intro same
      have first := congrArg (·.toList.head?) same
      simp only [String.toList_ofList, upper, List.map_cons, List.head?_cons] at first
      have raised : c.toUpper = ';' := Option.some.inj (first.trans (by decide))
      have letter := isAlpha_toUpper c
      rw [raised] at letter
      exact other ((toUpper_of_not_isAlpha letter.symm).symm.trans raised)
    rw [if_pos begins, known, List.takeWhile_cons_of_pos inside]
    simp only [apart, other, false_or]
  · have single : String.singleton c ∉ BlockGrammar.transactionKeywords := by
      intro listed
      have long := (BlockGrammar.letters_of_keyword listed).1
      rw [String.toList_singleton] at long
      exact Nat.lt_irrefl 1 long
    have unlisted : String.ofList (upper ((c :: rest).takeWhile ctx.isWordChar)) ∉
        BlockGrammar.transactionKeywords := by
      intro listed
      obtain ⟨x, word, split, -, starts, -⟩ := (BlockGrammar.spelled_of_keyword listed).starts ctx
      have first : x :: word <+: c :: rest := split ▸ List.takeWhile_prefix _
      obtain rfl := (List.cons_prefix_cons.mp first).1
      exact begins starts
    have text : String.singleton c = ";" ↔ c = ';' := by
      rw [← String.toList_inj, String.toList_singleton]
      exact List.singleton_inj
    rw [if_neg begins, known]
    simp only [single, unlisted, or_false, text]

end Context

namespace Dialect

variable {v : Vendor} {p : Char → Bool} {c x : Char} {rest : List Char}

/-- Two characters of an identifier begin no quoted text. -/
theorem token_of_identifier (first : inIdentifier c = true) (second : inIdentifier x = true)
    (begins : p c = true) : v.dialect.token p c (x :: rest) = .word := by
  have plain := (identifier_facts first).2.2.2.1
  have other := (identifier_facts second).2.2.2.1
  simp only [otherMarks, List.mem_cons, List.not_mem_nil, or_false, not_or] at plain other
  obtain ⟨single, double, back, -, -, -, dollar, -⟩ := plain
  have bracket : c ≠ '[' := by
    rintro rfl
    exact absurd first (by decide)
  cases v <;>
    simp [Vendor.dialect, token, dollarQuote?, quote?, identifierClose?, generic, mysql, postgres,
      oracle, sqlserver, Dialect.plain, single, double, Ne.symm double,
      Ne.symm back, Ne.symm bracket, dollar, other, begins]

end Dialect

theorem Delimiter.startsAt_cons {d : Delimiter} {cs : List Char} (starts : d.startsAt cs = true) :
    d.aloneOnLine = false ∧ ∃ c rest, cs = c :: rest := by
  simp only [Delimiter.startsAt, Bool.and_eq_true, Bool.not_eq_true', List.isEmpty_eq_false_iff,
    List.isPrefixOf_iff_prefix] at starts
  obtain ⟨⟨inline, nonempty⟩, begins⟩ := starts
  refine ⟨inline, List.exists_cons_of_ne_nil ?_⟩
  rintro rfl
  exact nonempty (List.prefix_nil.mp begins)

namespace Session

variable {s t u : Session} {draft e : Option Draft} {d : Draft} {items : List Item}
variable {word behind : List Char} {start : Cursor}

/-- Under an inline delimiter no word has asked for another one. -/
theorem unasked (hc : s.Classified (some d)) (inline : s.context.delimiter.aloneOnLine = false) :
    s.dialect.blocks.statementDelimiter? d.leading = none := by
  cases asked : s.dialect.blocks.statementDelimiter? d.leading with
  | none => rfl
  | some x =>
    obtain ⟨-, rfl⟩ := statementDelimiter?_eq_some asked
    rw [hc d rfl _ asked] at inline
    cases inline

theorem asks_of_inline (hc : s.Classified (some d))
    (inline : s.context.delimiter.aloneOnLine = false) {text : String}
    (plain : text ∉ BlockGrammar.unitWords) (later : d.leading ≠ []) :
    d.asks s.dialect.blocks text = none := by
  rw [Draft.asks, statementDelimiter?_append _ plain (Or.inl later), unasked hc inline]
  exact ite_self none

theorem asks_of_ne_oracle {v : Vendor} (other : v ≠ .oracle) (d : Draft) (text : String) :
    d.asks v.dialect.blocks text = none := by
  cases asked : d.asks v.dialect.blocks text with
  | none => rfl
  | some x =>
    have grammar := (asks_eq_some asked).1
    cases v with
    | oracle => exact absurd rfl other
    | generic => cases grammar
    | mysql => cases grammar
    | postgres => cases grammar
    | sqlserver => cases grammar

/-- A word that does nothing of its own is only passed. -/
theorem Scans.idle (scans : s.Scans draft u d) (open_ : u.wordText ≠ "END")
    (plain : u.wordText ≠ "DELIMITER")
    (shut : u.dialect.blocks.opens (u.scanned d) u.context = false)
    (keeps : d.asks u.dialect.blocks u.wordText = none) :
    s.pass draft = .more u.afterWord (some (d.afterWord u.wordText)) := by
  have closed : u.afterWord.dialect.blocks.opens (u.afterWord.asWord d u.wordText
      (u.context.tokenAhead? u.afterWord.cursor.ahead)) u.afterWord.context = false := shut
  have kept : d.asks u.afterWord.dialect.blocks u.wordText = none := keeps
  rw [scans.pass open_ plain, classify_eq, openBlock_eq, closed]
  dsimp only
  rw [kept]
  rfl

/-- The statement with this beginning goes on to `behind`, and ends there at the delimiter. -/
def EndsAt (s : Session) (draft : Option Draft) (start : Cursor) (behind : List Char) : Prop :=
  ∃ t x u, Passes s draft t (some x) ∧ t.cursor.ahead = behind ∧ x.start = start ∧
    t.context.delimiter = s.context.delimiter ∧ t.pass (some x) = .found u (t.cut x t.cursor)

theorem EndsAt.of_passes (ends : t.EndsAt e start behind) (h : Passes s draft t e)
    (same : t.context.delimiter = s.context.delimiter) : s.EndsAt draft start behind := by
  obtain ⟨r, x, u, later, ahead, begins, kept, found⟩ := ends
  exact ⟨r, x, u, passes_trans h later, ahead, begins, kept.trans same, found⟩

theorem endsAt_delimiter (ahead : s.cursor.ahead = behind) (outside : s.context.blocks = [])
    (level : s.context.parens ≤ 0) (active : s.context.delimiter.startsAt behind = true)
    (solid : ∀ c ∈ behind.head?, isBlank c = false) : s.EndsAt (some d) d.start behind := by
  obtain ⟨inline, c, rest, rfl⟩ := Delimiter.startsAt_cons active
  have length : s.delimiterLength? = some s.context.delimiter.text.toList.length := by
    simp [delimiterLength?, Context.blockDepth, outside, inline, level, ahead, active]
  exact ⟨s, d, _, .refl s _, ahead, rfl, rfl, pass_of_delimiter ahead (solid c rfl) length⟩

/-- The word of a transaction is passed as far as the delimiter. -/
theorem pass_keyword (v : Vendor) (dialect : s.dialect = v.dialect)
    (hc : s.Classified (some d)) (begun : d.leading ≠ [])
    (keyword : String.ofList (upper word) ∈ BlockGrammar.transactionKeywords)
    (ahead : s.cursor.ahead = word ++ behind) (whole : s.word = word)
    (inline : s.context.delimiter.aloneOnLine = false) :
    s.pass (some d) = .more s.afterWord (some (d.afterWord s.wordText)) ∧
      s.afterWord.cursor.ahead = behind := by
  obtain ⟨notEnd, undirected, noUnit, closed⟩ := BlockGrammar.plain_of_keyword keyword
  have text : s.wordText = String.ofList (upper word) := by rw [wordText, whole]
  have spelled := BlockGrammar.spelled_of_keyword keyword
  obtain ⟨c, rest, rfl, first, begins, -⟩ := spelled.starts s.context
  obtain ⟨x, rest, rfl⟩ : ∃ x more, rest = x :: more := by
    have long := (BlockGrammar.letters_of_keyword keyword).1
    refine List.exists_cons_of_ne_nil ?_
    rintro rfl
    rw [String.toList_ofList] at long
    exact Nat.lt_irrefl 1 long
  obtain ⟨solid, -, -, others, -⟩ := identifier_facts first
  have apart : s.delimiterLength? = none := by
    rw [Option.eq_none_iff_forall_ne_some]
    intro n found
    obtain ⟨-, ⟨alone, -⟩ | ⟨-, starts, -⟩⟩ := delimiterLength?_eq_some found
    · rw [inline] at alone
      cases alone
    · rw [ahead, List.cons_append] at starts
      rw [Session.word, ahead, List.cons_append, Context.wordAhead, starts] at whole
      simp at whole
  have open_ : s.gap? (some d) c = none := by
    refine gap?_eq_none_iff.mpr ⟨solid, apart, ?_, ahead ▸ comment?_of_plain s.dialect others⟩
    rintro ⟨⟩
  have token : s.dialect.token s.context.startsWord c (x :: rest ++ behind) = .word := by
    rw [dialect]
    exact Dialect.token_of_identifier first (spelled.inside x (by simp)) begins
  have begin : s.begin (some d) = .ok (s, d) := rfl
  have scans : s.Scans (some d) s d := by
    refine ⟨begin, ?_⟩
    rw [item?_of_begin (show s.cursor.ahead = c :: (x :: rest ++ behind) from ahead) open_ begin,
      token]
  refine ⟨scans.idle (text ▸ notEnd) (text ▸ undirected) ?_ ?_, ?_⟩
  · refine BlockGrammar.opens_other ?_
    have same : (s.scanned d).text = s.wordText := rfl
    rw [same, text]
    exact closed _
  · rw [text]
    exact asks_of_inline hc inline noUnit begun
  · rw [afterWord, whole, skip_cursor, Cursor.skip_ahead, ahead, List.drop_left]

/-- A `BEGIN` goes by the first character ahead and the word characters from there on. -/
theorem Scans.opens_begin (scans : s.Scans draft u d) (begin : u.wordText = "BEGIN")
    {c : Char} {rest : List Char} (next : trimStart u.afterWord.cursor.ahead = c :: rest) :
    s.Opens draft u ↔ c ≠ ';' ∧
      String.ofList (upper ((c :: rest).takeWhile u.context.isWordChar)) ∉
        BlockGrammar.transactionKeywords := by
  have seen : (u.scanned d).next = u.context.tokenAhead? u.afterWord.cursor.ahead := rfl
  have text : (u.scanned d).text = "BEGIN" := begin
  rw [scans.opens_iff (by simp [begin]) (by simp [begin]), BlockGrammar.opens_eq_of_begin text,
    seen, ← not_or, ← Context.beginsTransaction_iff next, Bool.not_eq_true', Bool.not_eq_true]

/-- The same where `behind` comes next, or comes right after the word of a transaction. -/
theorem Scans.opens_before (scans : s.Scans draft u d) (begin : u.wordText = "BEGIN")
    (ahead : trimStart u.afterWord.cursor.ahead = word ++ behind)
    (starts : word = [] ∨ String.ofList (upper word) ∈ BlockGrammar.transactionKeywords)
    (nonempty : behind ≠ []) :
    s.Opens draft u ↔ (word = [] → behind.head? ≠ some ';') ∧
      String.ofList (upper (word ++ behind.takeWhile u.context.isWordChar)) ∉
        BlockGrammar.transactionKeywords := by
  obtain ⟨c, rest, next⟩ : ∃ c rest, word ++ behind = c :: rest :=
    List.exists_cons_of_ne_nil (List.append_ne_nil_of_right_ne_nil word nonempty)
  have semicolon : c ≠ ';' ↔ (word = [] → behind.head? ≠ some ';') := by
    rcases starts with rfl | keyword
    · rw [List.nil_append] at next
      simp [next]
    · obtain ⟨x, rest, rfl, inside, -⟩ :=
        (BlockGrammar.spelled_of_keyword keyword).starts u.context
      obtain ⟨rfl, -⟩ := List.cons.inj next
      have other : x ≠ ';' := by
        rintro rfl
        exact absurd inside (by decide)
      simp [other]
  have letters : ∀ c, inIdentifier c = true → u.context.isWordChar c = true :=
    fun c inside => isWordChar_of_inIdentifier inside u.context
  rw [scans.opens_begin begin (ahead.trans next), semicolon, ← next,
    BlockGrammar.takeWhile_keyword letters starts]

/-- A `BEGIN` that opens no block is passed, with the word of a transaction after it, up to the
delimiter. -/
theorem Scans.endsAt (v : Vendor) (dialect : u.dialect = v.dialect) (hc : s.Classified draft)
    (scans : s.Scans draft u d) (begin : u.wordText = "BEGIN")
    (ahead : trimStart u.afterWord.cursor.ahead = word ++ behind)
    (starts : word = [] ∨ String.ofList (upper word) ∈ BlockGrammar.transactionKeywords)
    (active : s.context.delimiter.startsAt behind = true) (shut : ¬ s.Opens draft u)
    (outside : s.context.blocks = []) (level : s.context.parens ≤ 0)
    (whole : u.context.wordAhead (word ++ behind) = word)
    (solid : ∀ c ∈ behind.head?, isBlank c = false) (later : v = .oracle → d.leading ≠ []) :
    s.EndsAt draft d.start behind := by
  obtain ⟨inline, -⟩ := Delimiter.startsAt_cons active
  have same : u.context.delimiter = s.context.delimiter ∧ u.context.blocks = [] ∧
      u.context.parens ≤ 0 := by
    obtain ⟨kind, rfl⟩ := begin_ok scans.begun
    exact ⟨rfl, outside, level⟩
  obtain ⟨delimiter, outside, level⟩ := same
  rw [← delimiter] at inline active
  have plain : u.wordText ≠ "END" ∧ u.wordText ≠ "DELIMITER" := by simp [begin]
  have closed : u.dialect.blocks.opens (u.scanned d) u.context = false := by
    rw [Bool.eq_false_iff]
    exact fun opens => shut ((scans.opens_iff plain.1 plain.2).mpr opens)
  have keeps : d.asks u.dialect.blocks u.wordText = none := by
    by_cases first : d.leading = []
    · rw [dialect]
      exact asks_of_ne_oracle (fun oracle => later oracle first) d u.wordText
    · rw [begin]
      exact asks_of_inline (classified_begin hc scans.begun) inline (by decide) first
  have pass := scans.idle plain.1 plain.2 closed keeps
  obtain ⟨gap, parts, blank, -⟩ := trimStart_split u.afterWord.cursor.ahead
  rw [ahead] at parts
  have passes : Passes s draft (u.afterWord.skip gap.length) (some (d.afterWord u.wordText)) :=
    .step (step_of_pass pass) (passes_blanks blank parts)
  have ahead' : (u.afterWord.skip gap.length).cursor.ahead = word ++ behind := by
    rw [skip_cursor, Cursor.skip_ahead, parts, List.drop_left]
  refine EndsAt.of_passes ?_ passes delimiter
  rcases starts with rfl | keyword
  · exact endsAt_delimiter (d := d.afterWord u.wordText) ahead' outside level active solid
  · have spelled : (u.afterWord.skip gap.length).word = word := by
      rw [Session.word, ahead']
      exact whole
    have begun := leading_afterWord d u.wordText
    obtain ⟨pass', there⟩ := pass_keyword (s := u.afterWord.skip gap.length) v dialect
      (passes_classified passes hc) begun keyword ahead' spelled inline
    refine EndsAt.of_passes ?_ (.step (step_of_pass pass') (.refl _ _)) rfl
    exact endsAt_delimiter (d := (d.afterWord u.wordText).afterWord _) there outside level active
      solid

end Session

variable {s u : Session} {draft : Option Draft} {d : Draft} {items : List Item}
variable {word behind : List Char}

/-- The active delimiter comes after a `BEGIN`, or right after a word of transactions that comes
after it. Then a block is opened exactly if the token looked up is neither a semicolon nor such a
word, where the token takes in the word characters that the delimiter begins with. If there are
none, only a `BEGIN` on its own opens a block, and does so before every delimiter that does not
begin with a semicolon. If no block is opened, the statement ends at this delimiter; the first
word of an Oracle statement is set apart, since it makes the slash the delimiter. -/
theorem opens_begin_iff (v : Vendor) (delimiter : Delimiter) (script : String)
    (reached : Session.Reached v.dialect delimiter script s draft items)
    (scans : s.Scans draft u d) (begin : u.wordText = "BEGIN")
    (ahead : trimStart u.afterWord.cursor.ahead = word ++ behind)
    (starts : word = [] ∨ String.ofList (upper word) ∈ BlockGrammar.transactionKeywords)
    (active : s.context.delimiter.startsAt behind = true) :
    (s.Opens draft u ↔ (word = [] → behind.head? ≠ some ';') ∧
      String.ofList (upper (word ++ behind.takeWhile v.dialect.isWordChar)) ∉
        BlockGrammar.transactionKeywords) ∧
    ((∀ c ∈ behind.head?, v.dialect.isWordChar c = false) →
      (s.Opens draft u ↔ word = [] ∧ behind.head? ≠ some ';')) ∧
    (¬ s.Opens draft u → s.context.blocks = [] → s.context.parens ≤ 0 →
      u.context.wordAhead (word ++ behind) = word → (∀ c ∈ behind.head?, isBlank c = false) →
      (v = .oracle → d.leading ≠ []) → s.EndsAt draft d.start behind) := by
  have dialect : u.dialect = v.dialect :=
    (Session.begin_dialect scans.begun).trans (Session.dialect_of_reached reached)
  have kind : u.context.kind = v.dialect.kind := by
    rw [Session.typed_begin (Session.reached_typed reached) scans.begun,
      Session.dialect_of_reached reached]
  have wordChar : u.context.isWordChar = v.dialect.isWordChar :=
    funext (Dialect.isWordChar_eq v.dialect kind)
  obtain ⟨-, c, rest, split⟩ := Delimiter.startsAt_cons active
  have rule : s.Opens draft u ↔ (word = [] → behind.head? ≠ some ';') ∧
      String.ofList (upper (word ++ behind.takeWhile v.dialect.isWordChar)) ∉
        BlockGrammar.transactionKeywords := by
    rw [← wordChar]
    exact scans.opens_before begin ahead starts (split ▸ List.cons_ne_nil c rest)
  refine ⟨rule, ?_, ?_⟩
  · intro apart
    have none : behind.takeWhile v.dialect.isWordChar = [] := by
      rw [split, List.takeWhile_cons_of_neg]
      simp [apart c (by rw [split]; rfl)]
    rw [rule, none, List.append_nil]
    rcases starts with rfl | keyword
    · have short : String.ofList (upper []) ∉ BlockGrammar.transactionKeywords := by decide
      simp [short]
    · have long : word ≠ [] := (BlockGrammar.spelled_of_keyword keyword).ne_nil
      simp [keyword, long]
  · intro shut outside level whole solid later
    exact scans.endsAt v dialect (Session.reached_classified reached) begin ahead starts active shut
      outside level whole solid later

/-- This transaction starts with its word, and ends at the delimiter set before it. -/
theorem opens_begin_iff_work :
    ∃ s draft items u d, Session.Reached Dialect.mysql .semicolon
        "DELIMITER //\nBEGIN WORK//\nCOMMIT//\n" s draft items ∧
      s.Scans draft u d ∧ u.wordText = "BEGIN" ∧ s.context.delimiter = .inline "//" ∧
      ¬ s.Opens draft u ∧ s.EndsAt draft d.start "//\nCOMMIT//\n".toList := by
  let r := Session.follow 2 (.ofScript .mysql .semicolon
    "DELIMITER //\nBEGIN WORK//\nCOMMIT//\n") none []
  let begun := r.1.begin r.2.1
  let u := (begun.toOption.getD (r.1, .begin r.1.cursor)).1
  let d := (begun.toOption.getD (r.1, .begin r.1.cursor)).2
  have reached : Session.Reached Dialect.mysql .semicolon
      "DELIMITER //\nBEGIN WORK//\nCOMMIT//\n" r.1 r.2.1 r.2.2 := Session.reached_follow 2 .start
  have scans : r.1.Scans r.2.1 u d := ⟨by decide +kernel, by decide +kernel⟩
  have begin : u.wordText = "BEGIN" := by decide +kernel
  have delimiter : r.1.context.delimiter = .inline "//" := by decide +kernel
  obtain ⟨-, opens, ends⟩ := opens_begin_iff .mysql .semicolon _ reached scans begin
    (show trimStart u.afterWord.cursor.ahead = "WORK".toList ++ "//\nCOMMIT//\n".toList by
      decide +kernel) (Or.inr (by decide)) (by decide +kernel)
  have shut : ¬ r.1.Opens r.2.1 u := by
    rw [opens (by decide +kernel)]
    rintro ⟨none, -⟩
    exact absurd none (by decide)
  have ended := ends shut (by decide +kernel) (by decide +kernel) (by decide +kernel)
    (by decide +kernel) (fun oracle => absurd oracle (by decide))
  exact ⟨r.1, r.2.1, r.2.2, u, d, reached, scans, begin, delimiter, shut, ended⟩

/-- A `BEGIN` that ends its statement before a semicolon opens a block before another delimiter.
Nothing closes this block, and the script gives no statements. -/
theorem splitFrom_begin_slashes :
    (splitFrom .mysql .semicolon "BEGIN;\nSELECT 1;\n").toOption.map (·.map (·.sql)) =
      some ["BEGIN", "SELECT 1"] ∧
    splitFrom .mysql .semicolon "DELIMITER //\nBEGIN//\nSELECT 1//\n" =
      .error (.unclosedBlock "BEGIN" 2) := by
  decide +kernel

/-- Plain statements and transactions are the same with either delimiter behind each of them. A
`BEGIN` among them starts a transaction in both scripts, so that none stands right before a delimiter
other than a semicolon, and no delimiter goes on with the word behind one. -/
theorem sql_of_redelimited {v : Vendor} {d d' : Delimiter} {texts : List (List Char)}
    {script script' : String} (vendor : v ≠ .oracle) (cuts : d.Cuts v.dialect)
    (cuts' : d'.Cuts v.dialect)
    (uncut : ∀ text ∈ texts, Tally.unbounded.Uncut d.text.toList 0 text ∧
      Tally.unbounded.Uncut d'.text.toList 0 text)
    (split : script.toList = texts.flatMap (· ++ d.text.toList))
    (split' : script'.toList = texts.flatMap (· ++ d'.text.toList))
    (quiet : Quiet v.dialect script.toList) (quiet' : Quiet v.dialect script'.toList)
    (fit : ParensFit script.toList) (fit' : ParensFit script'.toList) :
    ∃ statements statements', splitFrom v.dialect d script = .ok statements ∧
      splitFrom v.dialect d' script' = .ok statements' ∧
      statements.map (·.sql) = sqlTexts texts ∧
      statements'.map (·.sql) = statements.map (·.sql) := by
  have last : sqlTexts (texts ++ [[]]) = sqlTexts texts := by
    simp [sqlTexts, trim_of_blank (List.forall_mem_nil _)]
  obtain ⟨statements, found, sql⟩ := splitFrom_pieces vendor cuts quiet
  obtain ⟨statements', found', sql'⟩ := splitFrom_pieces vendor cuts' quiet'
  rw [Tally.pieces_wrapping fit, split,
    Tally.pieces_flatMap cuts.nonempty fun text mem => (uncut text mem).1, last] at sql
  rw [Tally.pieces_wrapping fit', split',
    Tally.pieces_flatMap cuts'.nonempty fun text mem => (uncut text mem).2, last] at sql'
  exact ⟨statements, statements', found, found', sql, sql'.trans sql.symm⟩

example :
    (splitFrom .mysql .semicolon "BEGIN WORK;SELECT (1);COMMIT;").toOption.map (·.map (·.sql)) =
      some ["BEGIN WORK", "SELECT (1)", "COMMIT"] ∧
    (splitFrom .mysql (.inline "//") "BEGIN WORK//SELECT (1)//COMMIT//").toOption.map
      (·.map (·.sql)) = some ["BEGIN WORK", "SELECT (1)", "COMMIT"] := by
  decide +kernel

end SqlBoundary
