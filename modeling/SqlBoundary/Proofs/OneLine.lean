import SqlBoundary.Proofs.Layout
import SqlBoundary.Proofs.Phrases
import SqlBoundary.Proofs.Plain
import SqlBoundary.Proofs.Segment

/-!
# Statements on one line

A statement of a few words that is the whole script, on one line, with the delimiter that the
dialect starts with. What the reading goes by is the words so far and the blocks that are open.
There is one rule for a space, one for a sign, one for a word of any letters and one for the
semicolon at the end, which in SQL Server belongs to the statement.
-/

namespace SqlBoundary

open Text Lexeme

/-- A character that by itself begins neither a quoted text nor a comment. -/
structure Vendor.Clear (v : Vendor) (c : Char) : Prop where
  solid : isBlank c = false
  unmarked : c ∉ ['\'', '"', '\x60', '[', '-', '/']
  hash : v = .mysql → c ≠ '#'
  dollar : v = .postgres → c ≠ '$'

instance (v : Vendor) (c : Char) : Decidable (v.Clear c) :=
  decidable_of_iff (isBlank c = false ∧ c ∉ ['\'', '"', '\x60', '[', '-', '/'] ∧
      (v = .mysql → c ≠ '#') ∧ (v = .postgres → c ≠ '$'))
    ⟨fun ⟨solid, unmarked, hash, dollar⟩ => ⟨solid, unmarked, hash, dollar⟩,
      fun h => ⟨h.solid, h.unmarked, h.hash, h.dollar⟩⟩

/-- An identifier that is written without quotes. A dollar cannot be the first character where it
begins a quoted text. -/
structure Vendor.Identifies (v : Vendor) (w : List Char) : Prop where
  first : ∀ c ∈ w.head?, v.dialect.startsWord c = true ∧ (v = .postgres → c ≠ '$')
  inside : ∀ c ∈ w, v.dialect.isWordChar c = true
  nonempty : w ≠ []

instance (v : Vendor) (w : List Char) : Decidable (v.Identifies w) :=
  decidable_of_iff ((∀ c ∈ w.head?, v.dialect.startsWord c = true ∧ (v = .postgres → c ≠ '$')) ∧
      (∀ c ∈ w, v.dialect.isWordChar c = true) ∧ w ≠ [])
    ⟨fun ⟨first, inside, nonempty⟩ => ⟨first, inside, nonempty⟩,
      fun h => ⟨h.first, h.inside, h.nonempty⟩⟩

/-- What stands directly behind the words of the statements here. -/
def wordEnds : List Char := [' ', '.', ';']

section

variable {v : Vendor} {c : Char} {w rest : List Char}

theorem isWordChar_wordEnds (mem : c ∈ wordEnds) : v.dialect.isWordChar c = false := by
  have all : ∀ c ∈ wordEnds, v.dialect.isWordChar c = false := by cases v <;> decide +kernel
  exact all c mem

theorem unmarked_of_vendorWord (h : v.dialect.isWordChar c = true) :
    c ∉ ['\'', '"', '\x60', '[', '-', '/', ';'] := by
  intro mem
  have all : ∀ c ∈ ['\'', '"', '\x60', '[', '-', '/', ';'],
      v.dialect.isWordChar c = false := by cases v <;> decide +kernel
  rw [all c mem] at h
  cases h

namespace Vendor.Clear

theorem comment? (clear : v.Clear c) (rest : List Char) :
    v.dialect.comment? (c :: rest) = none := by
  obtain ⟨-, unmarked, hash, -⟩ := clear
  simp only [List.mem_cons, List.not_mem_nil, or_false, not_or] at unmarked
  obtain ⟨-, -, -, -, dash, slash⟩ := unmarked
  have hashes : (v.dialect.hashComments && c == '#') = false := by
    cases v with
    | mysql => rw [beq_eq_false_iff_ne.mpr (hash rfl), Bool.and_false]
    | _ => rfl
  simp [Dialect.comment?, List.isPrefixOf, hashes, Ne.symm dash, Ne.symm slash]

theorem token (clear : v.Clear c) (unquoted : rest.head? ≠ some '\'') :
    v.dialect.dollarQuote? c rest = none ∧ v.dialect.quote? c rest = none := by
  obtain ⟨-, unmarked, -, dollar⟩ := clear
  simp only [List.mem_cons, List.not_mem_nil, or_false, not_or] at unmarked
  obtain ⟨single, double, back, bracket, -⟩ := unmarked
  constructor
  · rw [Dialect.dollarQuote?, if_neg]
    simp only [Bool.and_eq_true, beq_iff_eq]
    rintro ⟨dollars, rfl⟩
    cases v with
    | postgres => exact dollar rfl rfl
    | _ => cases dollars
  · have escaped : (rest.head? == some '\'') = false := beq_eq_false_iff_ne.mpr unquoted
    cases v <;> simp [Dialect.quote?, Dialect.identifierClose?, Vendor.dialect, Dialect.generic,
      Dialect.mysql, Dialect.postgres, Dialect.oracle, Dialect.sqlserver, Dialect.plain, escaped,
      single, Ne.symm double, double, Ne.symm back, Ne.symm bracket]

end Vendor.Clear

/-- A digit begins no word, and is read by itself. -/
theorem digit_facts (v : Vendor) (digit : c.isDigit = true) :
    v.Clear c ∧ v.dialect.startsWord c = false ∧ c ∉ [';', '(', ')'] := by
  have all : ∀ n < 128, (Char.ofNat n).isDigit = true → v.Clear (.ofNat n) ∧
      v.dialect.startsWord (.ofNat n) = false ∧ Char.ofNat n ∉ [';', '(', ')'] := by
    cases v <;> decide +kernel
  have low : c.toNat < 128 := by
    simp only [Char.isDigit, Bool.and_eq_true, decide_eq_true_eq] at digit
    exact Nat.lt_of_le_of_lt (UInt32.le_iff_toNat_le.mp digit.2) (by decide)
  have here := all c.toNat low
  rw [Char.ofNat_toNat] at here
  exact here digit

namespace Vendor.Identifies

theorem cons (identifies : v.Identifies w) : ∃ c more, w = c :: more ∧ v.Clear c ∧
    v.dialect.startsWord c = true ∧ c ≠ ';' := by
  obtain ⟨c, more, rfl⟩ := List.exists_cons_of_ne_nil identifies.nonempty
  obtain ⟨starts, dollar⟩ := identifies.first c rfl
  have letter := identifies.inside c List.mem_cons_self
  have unmarked := unmarked_of_vendorWord letter
  refine ⟨c, more, rfl, ⟨Dialect.isBlank_of_isWordChar letter, ?_, ?_, dollar⟩, starts, ?_⟩
  · exact fun mem => unmarked (List.mem_append_left [';'] mem)
  · rintro rfl rfl
    exact absurd starts (by decide +kernel)
  · rintro rfl
    exact unmarked (by decide)

theorem oneLine (identifies : v.Identifies w) : '\n' ∉ w := by
  intro mem
  have solid := Dialect.isBlank_of_isWordChar (identifies.inside _ mem)
  exact absurd solid (by decide)

theorem unquoted (identifies : v.Identifies w) (rest : List Char) :
    (w ++ rest).head? ≠ some '\'' := by
  obtain ⟨c, more, rfl, clear, -⟩ := identifies.cons
  rintro ⟨⟩
  exact clear.unmarked (by decide)

theorem wordAhead {ctx : Context} (identifies : v.Identifies w)
    (kind : ctx.kind = v.dialect.kind) (delimiter : ctx.delimiter = v.dialect.defaultDelimiter)
    (ends : ∀ c ∈ rest.head?, c ∈ wordEnds) : ctx.wordAhead (w ++ rest) = w := by
  refine Context.wordAhead_whole ?_ ?_ ?_
  · intro c mem
    rw [v.dialect.isWordChar_eq kind]
    exact identifies.inside c mem
  · intro c mem more
    have other : c ≠ ';' := by
      rintro rfl
      exact unmarked_of_vendorWord (identifies.inside _ mem) (by decide)
    have ordinary : Delimiter.semicolon.Ordinary := Or.inl rfl
    rw [delimiter]
    cases v with
    | sqlserver => rfl
    | generic | mysql | postgres | oracle => exact ordinary.startsAt other
  · intro c head
    rw [v.dialect.isWordChar_eq kind]
    exact isWordChar_wordEnds (ends c head)

end Vendor.Identifies

end

theorem Cursor.skip_content {cur : Cursor} (content : cur.content = true) (n : Nat)
    (oneLine : '\n' ∉ cur.ahead) : (cur.skip n).content = true := by
  induction n generalizing cur with
  | zero => exact content
  | succ n ih =>
    refine ih ?_ ?_
    · cases ahead : cur.ahead with
      | nil => simp [advance, ahead, content]
      | cons c rest =>
        rw [ahead] at oneLine
        have other : (c == '\n') = false := by
          rw [beq_eq_false_iff_ne]
          exact fun same => oneLine (same ▸ List.mem_cons_self)
        simp [advance, ahead, other, content]
    · rw [advance_ahead]
      exact fun mem => oneLine (List.mem_of_mem_tail mem)

/-- The words around the name. -/
def frameWords : List String := ["SELECT", "SET", "FROM", "t"]

theorem frame_word {text : String} (v : Vendor) (mem : text ∈ frameWords) :
    v.Identifies text.toList ∧
      String.ofList (upper text.toList) ∉ "END" :: v.dialect.blocks.openers := by
  have all : ∀ text ∈ frameWords, v.Identifies text.toList ∧
      String.ofList (upper text.toList) ∉ "END" :: v.dialect.blocks.openers := by
    cases v <;> decide +kernel
  exact all text mem

theorem first_word {text : String} (mem : text ∈ ["SELECT", "SET"]) :
    text ∈ frameWords ∧ String.ofList (upper text.toList) = text ∧ text ≠ "DELIMITER" ∧
      ∀ c ∈ text.toList.head?, c.toLower ∉ ['g', '/'] := by
  have all : ∀ text ∈ ["SELECT", "SET"], text ∈ frameWords ∧
      String.ofList (upper text.toList) = text ∧ text ≠ "DELIMITER" ∧
      ∀ c ∈ text.toList.head?, c.toLower ∉ ['g', '/'] := by decide
  exact all text mem

namespace Session

variable {s t u : Session} {draft e : Option Draft} {d x : Draft} {c : Char}
variable {v : Vendor} {script : String} {w rest cs cs' : List Char}
variable {words words' blocks blocks' : List String}

/-- No line with a delimiter begins here. -/
def OffLine (s : Session) : Prop :=
  s.cursor.atLineOf .go = false ∧ s.cursor.atLineOf .slash = false

theorem gap?_clear (dialect : s.dialect = v.dialect)
    (delimiter : s.context.delimiter = v.dialect.defaultDelimiter) (off : s.OffLine)
    (ahead : s.cursor.ahead = c :: rest) (clear : v.Clear c)
    (on : c ≠ ';' ∨ s.context.blocks ≠ [] ∨ v = .sqlserver) : s.gap? draft c = none := by
  refine gap?_eq_none_iff.mpr ⟨clear.solid, ?_, ?_, ?_⟩
  · rw [Option.eq_none_iff_forall_ne_some]
    intro n found
    obtain ⟨outside, ⟨alone, line, -⟩ | ⟨-, starts, -⟩⟩ := delimiterLength?_eq_some found
    · rw [delimiter] at alone line
      cases v with
      | sqlserver => exact absurd (off.1.symm.trans line) Bool.false_ne_true
      | generic | mysql | postgres | oracle => cases alone
    · rw [delimiter] at starts
      cases v with
      | sqlserver => cases starts
      | generic | mysql | postgres | oracle =>
        rcases on with other | inside | same
        · have ordinary : Delimiter.semicolon.Ordinary := Or.inl rfl
          rw [ahead] at starts
          exact absurd ((ordinary.startsAt other).symm.trans starts) Bool.false_ne_true
        · exact inside outside
        · cases same
  · intro _
    rw [atTerminator, dialect]
    cases v with
    | oracle => exact off.2
    | generic | mysql | postgres | sqlserver => rfl
  · rw [ahead, dialect]
    exact clear.comment? rest

/-- A name is taken as a whole. -/
theorem pass_name (dialect : s.dialect = v.dialect)
    (delimiter : s.context.delimiter = v.dialect.defaultDelimiter) (off : s.OffLine)
    (identifies : v.Identifies w) (ahead : s.cursor.ahead = w ++ rest)
    (ends : ∀ c ∈ rest.head?, c ∈ wordEnds) (begun : s.begin draft = .ok (u, d))
    (kind : u.context.kind = v.dialect.kind)
    (undirected : d.leading ≠ [] ∨ String.ofList (upper w) ≠ "DELIMITER") :
    s.pass draft = (u.skip w.length).takeWord d (String.ofList (upper w)) := by
  obtain ⟨c, more, rfl, clear, starts, other⟩ := identifies.cons
  obtain ⟨_, same⟩ := begin_ok begun
  have here : s.cursor.ahead = c :: (more ++ rest) := ahead
  have unquoted : (more ++ rest).head? ≠ some '\'' := by
    cases more with
    | nil =>
      intro next
      exact absurd (ends _ next) (by decide)
    | cons y more =>
      intro next
      have letter := identifies.inside y (List.mem_cons_of_mem c List.mem_cons_self)
      rw [Option.some.inj next] at letter
      exact unmarked_of_vendorWord letter (by decide)
  obtain ⟨dollar, quote⟩ := clear.token unquoted
  have whole : u.word = c :: more := by
    have context : u.context.delimiter = v.dialect.defaultDelimiter := by rw [same]; exact delimiter
    have cursor : u.cursor = s.cursor := by rw [same]
    rw [Session.word, cursor, ahead]
    exact identifies.wordAhead kind context ends
  have may : ¬ u.mayDirect d = true := by
    rw [mayDirect_iff, wordText, whole]
    rintro ⟨first, directive, -⟩
    exact undirected.elim (· first) (· directive)
  rw [pass_of_word here (gap?_clear dialect delimiter off here clear (Or.inl other)) begun
    (dialect ▸ dollar) (dialect ▸ quote) ((v.dialect.startsWord_eq kind c).trans starts),
    readWord_eq, if_neg may, afterWord, wordText, whole]

/-- Words that do not begin a unit, whatever follows them. -/
structure Query (words : List String) : Prop where
  nonempty : words ≠ []
  plain : ∀ more, BlockGrammar.isUnit (words ++ more) = false

theorem query_of_first {first : String} (mem : first ∈ ["SELECT", "SET"]) : Query [first] := by
  refine ⟨List.cons_ne_nil _ _, fun more => ?_⟩
  simp only [List.mem_cons, List.not_mem_nil, or_false] at mem
  rcases mem with rfl | rfl <;> rfl

theorem Query.snoc (query : Query words) (text : String) : Query (words ++ [text]) where
  nonempty := List.append_ne_nil_of_left_ne_nil query.nonempty _
  plain more := by
    rw [List.append_assoc]
    exact query.plain _

theorem Query.asks {text : String} (query : Query (d.leading ++ [text])) (grammar : BlockGrammar) :
    d.asks grammar text = none := by
  have unit : BlockGrammar.isUnit (d.leading ++ [text]) = false := by
    have alone := query.plain []
    rw [List.append_nil] at alone
    exact alone
  rw [Draft.asks]
  split
  · cases grammar with
    | oracle => rw [BlockGrammar.statementDelimiter?, unit]; rfl
    | common | mysql => rfl
  · rfl

/-- A statement of the script is being read: these are its words so far and the blocks open, and
this is ahead, on the same line. -/
structure Amid (v : Vendor) (script : String) (words blocks : List String) (cs : List Char)
    (s : Session) (d : Draft) : Prop where
  ahead : s.cursor.ahead = cs
  oneLine : '\n' ∉ cs
  content : s.cursor.content = true
  dialect : s.dialect = v.dialect
  kind : s.context.kind = v.dialect.kind
  delimiter : s.context.delimiter = v.dialect.defaultDelimiter
  parens : s.context.parens = 0
  blocks : s.context.blocks = blocks
  start : d.start = .start script.toList
  leading : d.leading = words
  previous : d.previous = words.getLast?
  query : Query words

namespace Amid

variable {text : String}

theorem off (h : Amid v script words blocks cs s d) : s.OffLine := by
  simp [OffLine, Cursor.atLineOf, h.content]

theorem behind (h : Amid v script words blocks (w ++ rest) s d) :
    (s.cursor.skip w.length).ahead = rest ∧ '\n' ∉ rest ∧
      (s.cursor.skip w.length).content = true := by
  refine ⟨?_, ?_, ?_⟩
  · rw [Cursor.skip_ahead, h.ahead, List.drop_left]
  · exact fun mem => h.oneLine (List.mem_append_right w mem)
  · exact Cursor.skip_content h.content _ (h.ahead ▸ h.oneLine)

/-- The word as the grammar is asked about it. -/
def asked (s : Session) (d : Draft) (w rest : List Char) : Word :=
  (s.skip w.length).asWord d (String.ofList (upper w)) (s.context.tokenAhead? rest)

theorem word (h : Amid v script words blocks (w ++ rest) s d)
    (few : words.length < Draft.leadingWords) (identifies : v.Identifies w)
    (ends : ∀ c ∈ rest.head?, c ∈ wordEnds) (spelled : String.ofList (upper w) = text)
    (other : text ≠ "END") : ∃ t e, Step s (some d) t (some e) ∧
      Amid v script (words ++ [text])
        (if v.dialect.blocks.opens (asked s d w rest) s.context then text :: blocks else blocks)
        rest t e := by
  obtain ⟨ahead, oneLine, content⟩ := h.behind
  have left : (s.skip w.length).cursor.ahead = rest := ahead
  have pass := pass_name h.dialect h.delimiter h.off identifies h.ahead ends
    (show s.begin (some d) = .ok (s, d) from rfl) h.kind (Or.inl (h.leading ▸ h.query.nonempty))
  have query : Query (d.leading ++ [text]) := h.leading ▸ h.query.snoc text
  rw [spelled, takeWord_name other (query.asks _), left] at pass
  refine ⟨_, _, step_of_pass pass, ahead, oneLine, content, h.dialect, h.kind, h.delimiter,
    h.parens, ?_, h.start, ?_, ?_, h.query.snoc text⟩
  · rw [asked, spelled, ← h.dialect, ← h.blocks]
    rfl
  · rw [Draft.afterWord, h.leading, if_pos few]
  · rw [List.getLast?_append, List.getLast?_singleton]
    rfl

end Amid

/-- Over the text the statement is read on, to where it has these words and blocks. -/
def Advances (v : Vendor) (script : String) (words blocks : List String) (cs : List Char)
    (words' blocks' : List String) (cs' : List Char) : Prop :=
  ∀ s d, Amid v script words blocks cs s d → ∃ t e, Passes s (some d) t (some e) ∧
    Amid v script words' blocks' cs' t e

namespace Advances

theorem refl (v : Vendor) (script : String) (words blocks : List String) (cs : List Char) :
    Advances v script words blocks cs words blocks cs :=
  fun s d h => ⟨s, d, .refl s (some d), h⟩

theorem space (later : Advances v script words blocks rest words' blocks' cs') :
    Advances v script words blocks (' ' :: rest) words' blocks' cs' := by
  intro s d h
  obtain ⟨ahead, oneLine, content⟩ := h.behind (w := [' '])
  have blank : ∀ c ∈ [' '], isBlank c = true := by decide
  have passes : Passes s (some d) (s.skip 1) (some d) := passes_blanks blank h.ahead
  obtain ⟨t, e, passes', after⟩ := later (s.skip 1) d ⟨ahead, oneLine, content, h.dialect, h.kind,
    h.delimiter, h.parens, h.blocks, h.start, h.leading, h.previous, h.query⟩
  exact ⟨t, e, passes_trans passes passes', after⟩

/-- A character that is neither of a word nor a parenthesis. -/
theorem sign (clear : v.Clear c) (other : v.dialect.startsWord c = false) (level : c ∉ ['(', ')'])
    (unquoted : rest.head? ≠ some '\'') (on : c ≠ ';' ∨ blocks ≠ [] ∨ v = .sqlserver)
    (later : Advances v script words blocks rest words' blocks' cs') :
    Advances v script words blocks (c :: rest) words' blocks' cs' := by
  intro s d h
  obtain ⟨ahead, oneLine, content⟩ := h.behind (w := [c])
  obtain ⟨dollar, quote⟩ := clear.token unquoted
  have gap : s.gap? (some d) c = none :=
    gap?_clear h.dialect h.delimiter h.off h.ahead clear (h.blocks ▸ on)
  have pass := pass_of_symbol h.ahead gap rfl (h.dialect ▸ dollar) (h.dialect ▸ quote)
    ((v.dialect.startsWord_eq h.kind c).trans other)
  simp only [List.mem_cons, List.not_mem_nil, or_false, not_or] at level
  have uncounted : (s.skip 1).countParen c = s.skip 1 := by simp [countParen, level]
  rw [uncounted] at pass
  obtain ⟨t, e, passes, after⟩ := later (s.skip 1) (d.afterSymbol c rest) ⟨ahead, oneLine, content,
    h.dialect, h.kind, h.delimiter, h.parens, h.blocks, h.start, h.leading, h.previous, h.query⟩
  exact ⟨t, e, .step (step_of_pass pass) passes, after⟩

/-- Digits before a word are read one by one. -/
theorem digits {ds : List Char} (each : ∀ c ∈ ds, c.isDigit = true)
    (unquoted : rest.head? ≠ some '\'')
    (later : Advances v script words blocks rest words' blocks' cs') :
    Advances v script words blocks (ds ++ rest) words' blocks' cs' := by
  induction ds with
  | nil => exact later
  | cons c ds ih =>
    have facts := digit_facts v (each c List.mem_cons_self)
    have next : (ds ++ rest).head? ≠ some '\'' := by
      cases ds with
      | nil => exact unquoted
      | cons y ds =>
        have digit := each y (List.mem_cons_of_mem c List.mem_cons_self)
        rintro ⟨⟩
        exact absurd digit (by decide)
    exact .sign facts.1 facts.2.1 (List.not_mem_of_not_mem_cons facts.2.2) next
      (Or.inl (List.ne_of_not_mem_cons facts.2.2))
      (ih fun x mem => each x (List.mem_cons_of_mem c mem))

/-- One of the words around the name. -/
theorem frame (w text : String) (mem : w ∈ frameWords) (few : words.length < Draft.leadingWords)
    (ends : ∀ c ∈ rest.head?, c ∈ wordEnds) (spelled : String.ofList (upper w.toList) = text)
    (later : Advances v script (words ++ [text]) blocks rest words' blocks' cs') :
    Advances v script words blocks (w.toList ++ rest) words' blocks' cs' := by
  intro s d h
  obtain ⟨identifies, unlisted⟩ := frame_word v mem
  rw [List.mem_cons, not_or] at unlisted
  obtain ⟨t, e, step, next⟩ := h.word few identifies ends spelled (spelled ▸ unlisted.1)
  have shut : v.dialect.blocks.opens (Amid.asked s d w.toList rest) s.context = false :=
    BlockGrammar.opens_other unlisted.2
  rw [shut] at next
  obtain ⟨u, f, passes, after⟩ := later t e next
  exact ⟨u, f, .step step passes, after⟩

end Advances

/-- A script that begins with such a word is not begun by a delimiter. -/
theorem offLine_start {script : String} (text : script.toList = c :: rest)
    (solid : isBlank c = false) (other : c.toLower ∉ ['g', '/']) :
    (ofScript v.dialect v.dialect.defaultDelimiter script).OffLine := by
  have ahead : (ofScript v.dialect v.dialect.defaultDelimiter script).cursor.ahead = c :: rest :=
    text
  simp only [List.mem_cons, List.not_mem_nil, or_false, not_or] at other
  have go : Delimiter.go.fillsLine (c :: rest) = false :=
    Delimiter.fillsLine_of_first (x := 'G') (by decide) solid other.1
  have slash : Delimiter.slash.fillsLine (c :: rest) = false :=
    Delimiter.fillsLine_of_first (x := '/') (by decide) solid other.2
  simp only [OffLine, Cursor.atLineOf, ahead, go, slash, Bool.and_false, and_self]

/-- A word has been passed on its line. -/
theorem content_first {script : List Char} (identifies : v.Identifies w)
    (text : script = w ++ rest) (oneLine : '\n' ∉ rest) :
    ((Cursor.start script).skip w.length).content = true := by
  have whole : '\n' ∉ w ++ rest := by simp [identifies.oneLine, oneLine]
  obtain ⟨c, more, rfl, clear, -⟩ := identifies.cons
  subst text
  have other : (c == '\n') = false := beq_eq_false_iff_ne.mpr (ne_lineFeed_of_solid clear.solid)
  have first : (Cursor.start (c :: (more ++ rest))).advance.content = true := by
    simp [Cursor.advance, Cursor.start, other, clear.solid]
  exact Cursor.skip_content first more.length fun mem => whole (List.mem_cons_of_mem c mem)

/-- The first word is passed, and neither opens a block nor asks for a delimiter. -/
theorem pass_first (first : String) (mem : first ∈ ["SELECT", "SET"])
    (text : script.toList = first.toList ++ rest) (ends : ∀ c ∈ rest.head?, c ∈ wordEnds) :
    let s := ofScript v.dialect v.dialect.defaultDelimiter script
    s.pass none = .more
      ({ s with context := { s.context with kind := v.dialect.kind } }.skip first.toList.length)
      (some ((Draft.begin s.cursor).afterWord first)) := by
  intro s
  obtain ⟨framed, spelled, directive, initial⟩ := first_word mem
  obtain ⟨identifies, other⟩ := frame_word v framed
  rw [spelled] at other
  have query := query_of_first mem
  have known : s.dialect.kind ≠ .unknown := by
    change v.dialect.kind ≠ .unknown
    cases v <;> decide
  let u : Session := { s with context := { s.context with kind := v.dialect.kind } }
  have begun : s.begin none = .ok (u, .begin s.cursor) :=
    begin_eq_ok_iff.mpr (Or.inr ⟨rfl, known, rfl, rfl⟩)
  have off : s.OffLine := by
    obtain ⟨c, more, split, clear, -⟩ := identifies.cons
    have line : script.toList = c :: (more ++ rest) := by rw [text, split]; rfl
    exact offLine_start line clear.solid (initial c (by rw [split]; rfl))
  have pass := pass_name (s := s) rfl rfl off identifies text ends begun rfl
    (Or.inr (spelled.trans_ne directive))
  rw [spelled, takeWord_unlisted (s := u.skip first.toList.length) other
    (query.asks (d := .begin s.cursor) _)] at pass
  exact pass

theorem amid_first (first : String) (mem : first ∈ ["SELECT", "SET"])
    (text : script.toList = first.toList ++ rest) (ends : ∀ c ∈ rest.head?, c ∈ wordEnds)
    (oneLine : '\n' ∉ rest) :
    ∃ u x, Passes (.ofScript v.dialect v.dialect.defaultDelimiter script) none u (some x) ∧
      Amid v script [first] [] rest u x := by
  refine ⟨_, _, .step (step_of_pass (pass_first first mem text ends)) (.refl _ _), ?_, oneLine, ?_,
    rfl, rfl, rfl, rfl, rfl, rfl, rfl, rfl, query_of_first mem⟩
  · change ((Cursor.start script.toList).skip _).ahead = rest
    rw [Cursor.skip_ahead, text]
    exact List.drop_left
  · exact content_first (frame_word v (first_word mem).1).1 text oneLine

theorem advances_semicolon (on : blocks ≠ [] ∨ v = .sqlserver) :
    Advances v script words blocks [';'] words blocks [] := by
  have clear : v.Clear ';' := by cases v <;> decide
  have other : v.dialect.startsWord ';' = false := by cases v <;> decide +kernel
  exact .sign clear other (by decide) nofun (Or.inr on) (.refl _ _ _ _ _)

/-- Where no block is open, the semicolon ends the statement, or the end of the script does. -/
theorem found_semicolon (h : Amid v script words [] [';'] s d) :
    ∃ t e statement u, Passes s (some d) t (some e) ∧ e.start = .start script.toList ∧
      t.pass (some e) = .found u statement ∧ u.cursor.ahead = [] := by
  by_cases same : v = .sqlserver
  · obtain ⟨t, e, passes, last⟩ := advances_semicolon (Or.inr same) s d h
    have pass : t.pass (some e) = t.finish (some e) := pass_of_end last.ahead
    rw [finish_outside last.blocks] at pass
    exact ⟨t, e, _, _, passes, last.start, pass, last.ahead⟩
  · have delimiter : s.context.delimiter = .semicolon := by
      rw [h.delimiter]
      cases v with
      | sqlserver => exact absurd rfl same
      | generic | mysql | postgres | oracle => rfl
    have active := delimiterLength?_semicolon h.blocks h.parens delimiter h.ahead
    have pass := pass_of_delimiter (d := d) h.ahead (by decide) active
    refine ⟨s, d, _, _, .refl _ _, h.start, pass, ?_⟩
    change (s.cursor.skip 1).ahead = []
    rw [Cursor.skip_ahead, h.ahead]
    rfl

/-- Inside a block it ends nothing, and the end of the script comes too early. -/
theorem failed_semicolon (h : Amid v script words blocks [';'] s d) (inside : blocks ≠ []) :
    ∃ t e u fault, Passes s (some d) t (some e) ∧ t.pass (some e) = .failed u fault := by
  obtain ⟨t, e, passes, last⟩ := advances_semicolon (Or.inl inside) s d h
  have pass : t.pass (some e) = t.finish (some e) := pass_of_end last.ahead
  rw [finish_inside (last.blocks ▸ inside)] at pass
  exact ⟨t, e, _, _, passes, pass⟩

theorem tokenAhead?_kind {ctx ctx' : Context} (kind : ctx.kind = ctx'.kind) (cs : List Char) :
    ctx.tokenAhead? cs = ctx'.tokenAhead? cs := by
  have word : ctx.isWordChar = ctx'.isWordChar := by
    funext c
    rw [Context.isWordChar, Context.isLetter, kind]
    rfl
  have starts : ctx.startsWord = ctx'.startsWord := by
    funext c
    rw [Context.startsWord, Context.isLetter, kind]
    rfl
  simp only [Context.tokenAhead?, word, starts]

end Session

end SqlBoundary
