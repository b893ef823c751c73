import SqlBoundary.Proofs.Calls
import SqlBoundary.Proofs.EndTail
import SqlBoundary.Proofs.Excerpt
import SqlBoundary.Proofs.Outlook

/-!
# A statement as it is printed

A statement is printed as its text with its delimiter right behind it, or on the next line if that
has to stand alone. The blanks before the delimiter are not printed, nor is what comes after it. The
text is read again as it was in its script, as long as no comment in it goes on into the delimiter
and no word looks beyond its end and finds something else there.
-/

namespace SqlBoundary

open Text Lexeme

variable {p w text blanks r b cs : List Char} {v : Vendor} {statement : Statement} {d : Delimiter}

theorem Dialect.comment?_of_opensLine {dialect : Dialect} (opens : dialect.OpensLine cs) :
    dialect.comment? cs = some (.closed (lineLength cs)) := by
  rw [comment?, if_pos]
  rw [Bool.or_eq_true, List.isPrefixOf_iff_prefix]
  rcases opens with dashes | ⟨hashes, hash⟩
  · exact Or.inl dashes
  · exact Or.inr (by simp [hashes, hash])

theorem Delimiter.alone_of_mem (standing : d ∈ [slash, go]) : d.aloneOnLine = true :=
  (by decide : ∀ d ∈ [slash, go], d.aloneOnLine = true) d standing

theorem Delimiter.display_alone (alone : d.aloneOnLine = true) :
    d.display.toList = '\n' :: d.text.toList := by
  simp [display, alone]

/-- A delimiter of one character, or one that stands alone, is not looked for beyond the next. -/
theorem Delimiter.startsAt_of_ne_nil {a b : List Char}
    (short : d.aloneOnLine = true ∨ d.text.toList.length ≤ 1) (nonempty : w ≠ []) :
    d.startsAt (w ++ b) = d.startsAt (w ++ a) := by
  obtain ⟨c, w, rfl⟩ := List.exists_cons_of_ne_nil nonempty
  rw [startsAt, startsAt]
  rcases short with alone | short
  · simp [alone]
  · cases spelled : d.text.toList with
    | nil => rfl
    | cons x rest =>
      rw [spelled, List.length_cons] at short
      obtain rfl : rest = [] := List.eq_nil_of_length_eq_zero (by omega)
      simp [List.isPrefixOf]

/-- After the statement's text come these blanks and `r` in its script, and `b` where it is
printed. -/
structure Statement.Printed (statement : Statement) (blanks r b : List Char) : Prop where
  blank : ∀ c ∈ blanks, isBlank c = true
  closes : statement.delimiter = .semicolon ∧ (r = [] ∨ ∃ more, r = ';' :: more) ∨
    statement.delimiter ∈ [.slash, .go] ∧ (r = [] ∨ '\n' ∈ blanks)
  display : ∃ after, b = statement.delimiter.display.toList ++ '\n' :: after

namespace Statement.Printed

variable (printed : statement.Printed blanks r b)
include printed

theorem inline (inline : statement.delimiter.aloneOnLine = false) :
    statement.delimiter = .semicolon ∧ (r = [] ∨ ∃ more, r = ';' :: more) ∧
      ∃ after, b = ';' :: '\n' :: after := by
  rcases printed.closes with ⟨delimiter, closes⟩ | ⟨delimiter, -⟩
  · obtain ⟨after, rfl⟩ := printed.display
    exact ⟨delimiter, closes, after, by rw [delimiter]; rfl⟩
  · rw [Delimiter.alone_of_mem delimiter] at inline
    cases inline

theorem alone (alone : statement.delimiter.aloneOnLine = true) :
    (r = [] ∨ '\n' ∈ blanks) ∧
      ∃ after, b = '\n' :: (statement.delimiter.text.toList ++ '\n' :: after) := by
  rcases printed.closes with ⟨delimiter, -⟩ | ⟨-, line⟩
  · rw [delimiter] at alone
    cases alone
  · obtain ⟨after, rfl⟩ := printed.display
    exact ⟨line, after, by rw [Delimiter.display_alone alone, List.cons_append]⟩

theorem standing (alone : statement.delimiter.aloneOnLine = true) :
    statement.delimiter ∈ [.slash, .go] := by
  rcases printed.closes with ⟨delimiter, -⟩ | ⟨others, -⟩
  · rw [delimiter] at alone
    cases alone
  · exact others

/-- No token of the text goes on, neither in its script nor where it is printed. -/
theorem here (v : Vendor) : v.dialect.Stops (blanks ++ r) := by
  cases gap : blanks with
  | cons c more =>
    exact Dialect.stops_cons (v.halts_of_blank (printed.blank c (gap ▸ List.mem_cons_self))) _
  | nil =>
    rcases printed.closes with ⟨-, rfl | ⟨more, rfl⟩⟩ | ⟨-, rfl | line⟩
    · exact Dialect.stops_nil _
    · exact Dialect.stops_cons v.halts_semicolon more
    · exact Dialect.stops_nil _
    · rw [gap] at line
      cases line

theorem there (v : Vendor) : v.dialect.Stops b := by
  cases kind : statement.delimiter.aloneOnLine with
  | false =>
    obtain ⟨-, -, after, rfl⟩ := printed.inline kind
    exact Dialect.stops_cons v.halts_semicolon _
  | true =>
    obtain ⟨-, after, rfl⟩ := printed.alone kind
    exact Dialect.stops_cons (v.halts_of_blank isBlank_lineFeed) _

/-- Where something stands right behind the text, something is printed there. -/
theorem solid (c : Char) (head : c ∈ (blanks ++ r).head?) (solid : isBlank c = false) :
    ∃ y ∈ b.head?, isBlank y = false := by
  obtain rfl : blanks = [] := by
    cases blanks with
    | nil => rfl
    | cons x more =>
      obtain rfl := Option.some.inj head
      rw [printed.blank x List.mem_cons_self] at solid
      cases solid
  cases kind : statement.delimiter.aloneOnLine with
  | false =>
    obtain ⟨-, -, after, rfl⟩ := printed.inline kind
    exact ⟨';', rfl, by decide⟩
  | true =>
    obtain ⟨rfl | none, -⟩ := printed.alone kind
    · cases head
    · cases none

/-- Before a semicolon a `BEGIN` starts a transaction, as it does before the end of the script. -/
theorem transaction (inline : statement.delimiter.aloneOnLine = false) (ctx : Context) :
    BlockGrammar.beginsTransaction (ctx.tokenAhead? b) =
      BlockGrammar.beginsTransaction (ctx.tokenAhead? (blanks ++ r)) := by
  obtain ⟨-, closes, after, rfl⟩ := printed.inline inline
  have next : ctx.tokenAhead? (';' :: '\n' :: after) = some ";" :=
    have blank : ∀ c ∈ ([] : List Char), isBlank c = true := nofun
    ctx.tokenAhead?_semicolon blank _
  rcases closes with rfl | ⟨more, rfl⟩
  · rw [next, List.append_nil, ctx.tokenAhead?_blanks printed.blank]
    rfl
  · rw [next, ctx.tokenAhead?_semicolon printed.blank]

/-- The last line of the text is the same, blanks apart, if the delimiter stands alone. -/
theorem fillsLine (alone : statement.delimiter.aloneOnLine = true) (d : Delimiter) (w : List Char) :
    d.fillsLine (w ++ b) = d.fillsLine (w ++ (blanks ++ r)) := by
  obtain ⟨line, after, rfl⟩ := printed.alone alone
  have ends : LineEnds ('\n' :: (statement.delimiter.text.toList ++ '\n' :: after)) :=
    Or.inr ⟨_, rfl⟩
  have rest : ∀ c ∈ currentLine (blanks ++ r), isBlank c = true := by
    intro c mem
    refine printed.blank c ?_
    rcases line with rfl | feed
    · rw [List.append_nil] at mem
      exact (List.takeWhile_prefix _).subset mem
    · rw [currentLine_of_mem feed] at mem
      exact (List.takeWhile_prefix _).subset mem
  rw [Delimiter.fillsLine, Delimiter.fillsLine, currentLine_append_of_lineEnds ends]
  by_cases feed : '\n' ∈ w
  · rw [currentLine_of_mem feed]
  · have whole := currentLine_append_of_not_mem feed
    rw [whole, trimEnd_append rest, ← List.append_nil w, whole]
    simp [currentLine]

end Statement.Printed

namespace Session

variable {s s' t u : Session} {draft draft' e f : Option Draft} {x y : Draft} {c : Char} {n : Nat}
variable {p' k w' : List Char} {z : Draft}

/-- The statement that reading on leads to. -/
def awaited? (s : Session) (draft : Option Draft) : Option Statement :=
  match (s.read draft).2 with
  | .ok found => found
  | .error _ => none

theorem awaited?_of_passes (h : Passes s draft u f) (hc : s.Classified draft)
    (found : u.pass f = .found t statement) : s.awaited? draft = some statement := by
  have answer : u.read f = (t, .ok (some statement)) := read_of_answer (by rw [found]; rfl)
  rw [awaited?, read_of_passes h hc, answer]

/-- What is printed of the statement is read from here on as it is in its script. -/
structure Reprints (s : Session) (draft : Option Draft) (statement : Statement) : Prop where
  /-- No comment goes on into the delimiter. -/
  comment : draft ≠ none → statement.delimiter.aloneOnLine = false →
    s.dialect.OpensLine s.cursor.ahead →
    s.cursor.offset + byteSize (currentLine s.cursor.ahead) < statement.stop
  /-- Parentheses are closed where the script ends. -/
  level : draft ≠ none → s.cursor.ahead = [] → statement.delimiter.aloneOnLine = false →
    s.context.parens ≤ 0
  /-- The first line is no delimiter. -/
  first : draft = none → ∀ d ∈ s.dialect.defaultDelimiter :: s.dialect.standaloneTerminator.toList,
    d.aloneOnLine = true →
    d.fillsLine (statement.sql ++ statement.delimiter.display).toList = false
  /-- No `BEGIN` is followed by a delimiter that is a word. -/
  begin : ∀ u x, s.Scans draft u x → u.wordText = "BEGIN" →
    statement.delimiter.aloneOnLine = true → u.afterWord.cursor.offset ≠ statement.stop
  /-- What is searched for is found, or not, whatever is printed after the statement. -/
  search : ∀ u x keywords w a after, s.Scans draft u x →
    u.dialect.blocks.sought? (u.scanned x) u.context = some keywords →
    u.afterWord.cursor.ahead = w ++ a →
    u.afterWord.cursor.offset + byteSize w = statement.stop →
    nextKeyword? (w ++ (statement.delimiter.display.toList ++ '\n' :: after)) keywords =
      nextKeyword? (w ++ a) keywords

/-- What a run keeps that starts with the dialect's own delimiter and reads no directive. -/
structure Native (v : Vendor) (s : Session) (draft : Option Draft) : Prop where
  dialect : s.dialect = v.dialect
  live : s.exhausted = false
  script : s.scriptDelimiter = v.dialect.defaultDelimiter
  owned : s.Owned draft
  typed : s.Typed draft
  classified : s.Classified draft

theorem step_native (h : Step s draft t e) (plain : s.setting? draft = none)
    (native : s.Native v draft) : t.Native v e where
  dialect := (step_dialect h).trans native.dialect
  live := (step_exhausted h).trans native.live
  script := by
    rw [step_setting h, plain]
    exact native.script
  owned := step_owned h native.owned
  typed := step_typed h native.typed
  classified := step_classified h native.classified

theorem found_native (h : s.pass draft = .found t statement) (native : s.Native v draft) :
    t.Native v none := by
  obtain ⟨n, rfl⟩ := restored_of_found h
  exact ⟨native.dialect, native.live, native.script, Or.inl rfl, typed_none _, classified_none _⟩

/-- The delimiters of such a run. -/
theorem Native.delimiter (native : s.Native v draft) :
    s.context.delimiter = .semicolon ∨ s.context.delimiter ∈ [.slash, .go] := by
  rcases native.owned with own | ⟨-, -, slash⟩
  · rw [own, native.script]
    cases v <;> decide
  · exact Or.inr (by rw [slash]; decide)

theorem Native.short (native : s.Native v draft) :
    s.context.delimiter.aloneOnLine = true ∨ s.context.delimiter.text.toList.length ≤ 1 := by
  rcases native.delimiter with semicolon | others
  · rw [semicolon]
    decide
  · exact Or.inl (Delimiter.alone_of_mem others)

/-- Between statements it is the dialect's own. -/
theorem Native.own (native : s.Native v none) :
    s.context.delimiter = v.dialect.defaultDelimiter := by
  rcases native.owned with own | ⟨held, -⟩
  · exact own.trans native.script
  · cases held

/-- Without a directive a statement is read to its end. -/
theorem step_within (h : Step s (some x) t e) (plain : s.setting? (some x) = none) :
    ∃ y, e = some y := by
  cases e with
  | some y => exact ⟨y, rfl⟩
  | none =>
    rcases step_to_none h with ⟨none, -⟩ | ⟨d, directs⟩
    · cases none
    · obtain ⟨ahead, solid, begun, token, may, line⟩ := directs
      rw [setting?_of_begin ahead solid begun, token] at plain
      simp [may, line] at plain

/-- A statement does not give up a delimiter that stands alone. -/
theorem step_alone (h : Step s draft t (some y))
    (alone : s.context.delimiter.aloneOnLine = true) :
    t.context.delimiter.aloneOnLine = true := by
  generalize held : some y = e at h
  cases h with
  | gap => exact alone
  | delimiter => cases held
  | text _ _ begun =>
    obtain ⟨kind, rfl⟩ := begin_ok begun
    exact alone
  | symbol _ _ begun =>
    obtain ⟨kind, rfl⟩ := begin_ok begun
    rw [countParen_eq]
    exact alone
  | directive => cases held
  | @word _ _ _ _ u _ d _ _ begun _ _ taken =>
    obtain ⟨kind, rfl⟩ := begin_ok begun
    obtain ⟨-, blocks, lastClosed, warnings, rfl⟩ := takeWord_more taken
    rw [classify_eq]
    dsimp only [Context.setDelimiter]
    generalize asks : d.asks _ _ = asked
    cases asked with
    | none => exact alone
    | some x =>
      obtain ⟨-, rfl⟩ := asks_eq_some asks
      rfl

/-- Of the text both have passed `k`, and `w` is ahead. It has `p` before it in the one script and
`p'` in the other. -/
structure Shares (p p' text blanks r b k w : List Char) (s s' : Session) : Prop where
  split : text = k ++ w
  more : w ≠ []
  here : s.cursor = .between (p ++ k) (w ++ (blanks ++ r))
  there : s'.cursor = .between (p' ++ k) (w ++ b)

/-- The two read the same of the text, in statements that agree. Behind the text, the one may have
to pass blanks. -/
inductive Copied (p p' text blanks r b : List Char) (origin : Cursor) :
    Session → Option Draft → Session → Option Draft → Prop
  | within {s s' : Session} {draft draft' : Option Draft} (k w : List Char)
      (shares : Shares p p' text blanks r b k w s s') (begun : draft = none ∨ k ≠ [])
      (twins : Twins s draft s' draft')
      (start : (draft'.map (·.start)).getD s'.cursor = origin) :
      Copied p p' text blanks r b origin s draft s' draft'
  | behind {s s' : Session} {x x' : Draft} (tail : List Char) (last : tail <:+ blanks)
      (twins : Twins s (some x) s' (some x'))
      (here : s.cursor.ahead = tail ++ r) (there : s'.cursor = .between (p' ++ text) b)
      (start : x'.start = origin) :
      Copied p p' text blanks r b origin s (some x) s' (some x')

theorem Twins.delimiterLength?_eq_none (twins : Twins s draft s' draft')
    (outside : s.delimiterLength? = none)
    (line : s.context.delimiter.aloneOnLine = true →
      s.cursor.atLineOf s.context.delimiter = false →
      s'.cursor.atLineOf s.context.delimiter = false)
    (starts : s.context.delimiter.aloneOnLine = false →
      s.context.delimiter.startsAt s.cursor.ahead = false →
      s.context.delimiter.startsAt s'.cursor.ahead = false) : s'.delimiterLength? = none := by
  have alike := twins.alike
  cases kind : s.context.delimiter.aloneOnLine with
  | true =>
    rw [delimiterLength?_alone_eq_none_iff kind] at outside
    rw [delimiterLength?_alone_eq_none_iff (alike.delimiter ▸ kind), alike.blocks, alike.delimiter]
    exact outside.imp_right (line kind)
  | false =>
    rw [delimiterLength?_eq_none_iff kind] at outside
    rw [delimiterLength?_eq_none_iff (alike.delimiter ▸ kind), alike.blocks, alike.parens,
      alike.delimiter]
    exact outside.imp_right (Or.imp_right (starts kind))

section

variable (printed : statement.Printed blanks r b)
include printed

/-- What ends with a character that is not blank ends within the text. -/
theorem within_of_endsBefore (ends : EndsBefore n (w ++ (blanks ++ r)))
    (fits : n ≤ (w ++ blanks).length) : n ≤ w.length := by
  obtain ⟨m, c, rfl, here, solid⟩ := ends
  by_contra beyond
  have far : w.length ≤ m := by omega
  rw [← List.append_assoc, List.getElem?_append_left fits, List.getElem?_append_right far] at here
  rw [printed.blank c (List.mem_of_getElem? here)] at solid
  cases solid

/-- Within the text the one finds no delimiter where the other finds none. -/
theorem delimiterLength?_copied (native : s.Native v (some x)) (trimmed : Trimmed text)
    (alone : s.context.delimiter.aloneOnLine = true → statement.delimiter.aloneOnLine = true)
    (twins : Twins s (some x) s' draft') (shares : Shares p p' text blanks r b k w s s')
    (begun : k ≠ []) (outside : s.delimiterLength? = none) : s'.delimiterLength? = none := by
  obtain ⟨split, more, here, there⟩ := shares
  obtain ⟨c, k, rfl⟩ := List.exists_cons_of_ne_nil begun
  refine twins.delimiterLength?_eq_none outside ?_ ?_
  · intro kind line
    rw [here] at line
    rw [there]
    have first : EndsSolid [c] := by
      obtain ⟨z, rest, same, solid⟩ := trimmed.first
      rw [split] at same
      exact ⟨[], c, rfl, (List.cons.inj same).1 ▸ solid⟩
    have content := content_of_solid (first.append p') (first.append p) k
    rw [List.append_assoc, List.append_assoc] at content
    have same := printed.fillsLine (alone kind) s.context.delimiter w
    simp only [Cursor.atLineOf] at line ⊢
    rw [← line]
    exact congrArg₂ (fun x y => !x && y) (content (w ++ b) ▸ rfl) same
  · intro kind starts
    rw [here] at starts
    rw [there]
    exact (Delimiter.startsAt_of_ne_nil native.short more).trans starts

/-- Neither a delimiter nor a comment begins within the text where none does in its script. -/
theorem gap?_copied (more : w ≠ []) (dialect : s'.dialect = s.dialect)
    (ahead : s.cursor.ahead = w ++ (blanks ++ r)) (ahead' : s'.cursor.ahead = w ++ b)
    (native : s.Native v draft) (solid : s.gap? draft c = none)
    (outside : s'.delimiterLength? = none) (standing : draft' = none → s'.atTerminator = false) :
    s'.gap? draft' c = none := by
  obtain ⟨nonblank, -, -, uncommented⟩ := gap?_eq_none_iff.mp solid
  refine gap?_eq_none_iff.mpr ⟨nonblank, outside, standing, ?_⟩
  rw [dialect, ahead', native.dialect]
  rw [ahead, native.dialect] at uncommented
  refine (printed.there v).comment?_none more (fun _ => ?_) uncommented
  cases kind : statement.delimiter.aloneOnLine with
  | false =>
    obtain ⟨-, -, after, rfl⟩ := printed.inline kind
    simp
  | true =>
    obtain ⟨-, after, rfl⟩ := printed.alone kind
    simp

/-- A word that ends within the text is read alike. -/
theorem seesWord_copied (trimmed : Trimmed text) (spans : statement.Spans p text)
    (native : s.Native v draft) (reprints : s.Reprints draft statement)
    (split : text = k ++ w) (here : s.cursor = .between (p ++ k) (w ++ (blanks ++ r)))
    (scans : s.Scans draft u x) (fits : u.word.length ≤ w.length)
    (plain : u.mayDirect x = true → u.directive? = .ok none) : u.SeesWord x (w ++ b) := by
  obtain ⟨begun, word⟩ := scans
  have place : u.cursor = .between (p ++ k) (w ++ (blanks ++ r)) := (begin_cursor begun).trans here
  have dialect : u.dialect = v.dialect := (begin_dialect begun).trans native.dialect
  have kind : u.context.kind = u.dialect.kind := by
    rw [typed_begin native.typed begun, begin_dialect begun]
  obtain ⟨rest, rfl⟩ : u.word <+: w := by
    have begins : u.word <+: u.cursor.ahead := u.context.wordAhead_prefix u.cursor.ahead
    have whole : w <+: u.cursor.ahead := by
      rw [place]
      exact List.prefix_append w _
    exact List.prefix_of_prefix_length_le begins whole fits
  have ahead : u.cursor.ahead = u.word ++ (rest ++ (blanks ++ r)) := by
    rw [place, ← List.append_assoc u.word]
    rfl
  have after : u.afterWord.cursor = .between (p ++ k ++ u.word) (rest ++ (blanks ++ r)) := by
    rw [afterWord, skip_cursor, place, List.append_assoc u.word, Cursor.skip_text]
  have stop : u.afterWord.cursor.offset + byteSize rest = statement.stop := by
    rw [after, spans.stop, split]
    simp only [Cursor.between, byteSize_append]
    omega
  rw [List.append_assoc]
  refine seesWord_of_stops (dialect ▸ printed.there v) kind ahead ?_ (Or.inr ?_) ⟨?_, ?_⟩
  · intro q nonempty _ _
    refine Delimiter.startsAt_of_ne_nil ?_ nonempty
    have delimiter : u.context.delimiter = s.context.delimiter := by
      obtain ⟨kind, rfl⟩ := begin_ok begun
      rfl
    rw [delimiter]
    exact native.short
  · intro may
    refine ⟨plain may, directive?_none_of_solid ahead may (plain may) ?_⟩
    intro c head solid
    cases rest with
    | nil => exact printed.solid c head solid
    | cons y rest => exact ⟨c, head, solid⟩
  · intro text
    by_cases solid : ∃ c ∈ rest, isBlank c = false
    · have kind : u.context.kind = v.dialect.kind := kind.trans (by rw [dialect])
      rw [Dialect.Stops.tokenAhead? (printed.here v) (printed.there v) kind solid]
    · have nothing : rest = [] := by
        by_contra more
        have last := trimmed.last (rest.getLast more)
        rw [split, List.getLast?_append_of_ne_nil _ (List.append_ne_nil_of_right_ne_nil _ more),
          List.getLast?_append_of_ne_nil _ more, List.getLast?_eq_some_getLast more] at last
        exact solid ⟨_, List.getLast_mem more, last rfl⟩
      subst nothing
      cases standing : statement.delimiter.aloneOnLine with
      | false => exact printed.transaction standing u.context
      | true =>
        refine absurd ?_ (reprints.begin u x ⟨begun, word⟩ text standing)
        rw [← stop, byteSize_nil, Nat.add_zero]
  · intro keywords sought
    obtain ⟨later, rfl⟩ := printed.display
    refine reprints.search u x keywords rest _ later ⟨begun, word⟩ sought ?_ stop
    rw [after]
    rfl

/-- A comment ends within the text, or goes on over the blanks after it and ends with its line. -/
theorem comment?_copied (more : w ≠ [])
    (found : v.dialect.comment? (w ++ (blanks ++ r)) = some (.closed n))
    (fits : n ≤ (w ++ blanks).length)
    (ends : statement.delimiter.aloneOnLine = false → v.dialect.OpensLine (w ++ (blanks ++ r)) →
      lineLength (w ++ (blanks ++ r)) < w.length) :
    ∃ m, v.dialect.comment? (w ++ b) = some (.closed m) ∧
      (m = n ∧ n ≤ w.length ∨ m = w.length ∧ w.length < n) := by
  have whole : v.dialect.OpensLine (w ++ (blanks ++ r)) →
      n = lineLength (w ++ (blanks ++ r)) := by
    intro opens
    rw [Dialect.comment?_of_opensLine opens] at found
    cases found
    rfl
  by_cases inside : n ≤ w.length
  · refine ⟨n, Dialect.Stops.comment?_closed more found inside ?_, Or.inl ⟨rfl, inside⟩⟩
    intro opens long
    cases kind : statement.delimiter.aloneOnLine with
    | false =>
      have short := ends kind opens
      rw [← whole opens, long] at short
      exact absurd short (Nat.lt_irrefl _)
    | true =>
      obtain ⟨-, after, rfl⟩ := printed.alone kind
      exact Or.inr ⟨_, rfl⟩
  · have beyond := Nat.lt_of_not_le inside
    rcases Dialect.comment?_closes found with solid | ⟨line, opens⟩
    · exact absurd (within_of_endsBefore printed solid fits) inside
    cases kind : statement.delimiter.aloneOnLine with
    | false =>
      have short := ends kind opens
      rw [← line] at short
      exact absurd (Nat.le_of_lt short) inside
    | true =>
      obtain ⟨-, after, rfl⟩ := printed.alone kind
      have gap : blanks ≠ [] := by
        rintro rfl
        rw [List.append_nil] at fits
        exact inside fits
      have oneLine : '\n' ∉ w := by
        intro feed
        rw [line, lineLength, currentLine_of_mem feed] at beyond
        exact absurd (lineLength_le w) (Nat.not_le_of_lt beyond)
      have opens' : v.dialect.OpensLine
          (w ++ '\n' :: (statement.delimiter.text.toList ++ '\n' :: after)) := by
        rcases opens with dashes | ⟨hashes, hash⟩
        · exact Or.inl ((prefix_of_blanks (by decide) printed.blank gap dashes).trans
            (List.prefix_append w _))
        · obtain ⟨x, w, rfl⟩ := List.exists_cons_of_ne_nil more
          exact Or.inr ⟨hashes, hash⟩
      refine ⟨w.length, ?_, Or.inr ⟨rfl, beyond⟩⟩
      rw [Dialect.comment?_of_opensLine opens', lineLength,
        currentLine_of_lineEnds oneLine (Or.inr ⟨_, rfl⟩)]

/-- A token that ends within the text is the same in both. -/
theorem matches_copied (trimmed : Trimmed text) (spans : statement.Spans p text)
    (native : s.Native v draft) (reprints : s.Reprints draft statement)
    (shares : Shares p p' text blanks r b k w s s') {rest : List Char}
    (ahead : s.cursor.ahead = c :: rest) (solid : s.gap? draft c = none)
    (solid' : s'.gap? draft' c = none) (begun : s.begin draft = .ok (u, x))
    (closed : ∀ extent, u.dialect.token u.context.startsWord c rest = .text extent →
      ∃ n, extent = .closed n ∧ n ≤ w.length)
    (word : u.dialect.token u.context.startsWord c rest = .word → u.word.length ≤ w.length ∧
      (u.mayDirect x = true → u.directive? = .ok none)) : Matches s draft s' draft' := by
  obtain ⟨split, more, here, there⟩ := shares
  obtain ⟨z, w, rfl⟩ := List.exists_cons_of_ne_nil more
  obtain ⟨rfl, rfl⟩ : z = c ∧ w ++ (blanks ++ r) = rest := by
    rw [here] at ahead
    exact List.cons.inj ahead
  have ahead' : s'.cursor.ahead = z :: (w ++ b) := by rw [there]; rfl
  refine ⟨by rw [ahead, ahead']; rfl, ?_, ?_⟩
  · intro y head
    rw [ahead] at head
    cases head
    exact solid'.trans solid.symm
  · intro y head _ u' x' begun'
    rw [ahead] at head
    cases head
    rw [begun] at begun'
    cases begun'
    have dialect : u.dialect = v.dialect := (begin_dialect begun).trans native.dialect
    rw [ahead']
    refine seesToken_of_stops (dialect ▸ printed.here v) (dialect ▸ printed.there v)
      ((begin_cursor begun).symm ▸ ahead) closed ?_
    intro token
    have scans : s.Scans draft u x := ⟨begun, by rw [item?_of_begin ahead solid begun, token]⟩
    exact seesWord_copied printed trimmed spans native reprints split here scans (word token).1
      (word token).2

end

/-- Both have passed the same characters of the text. -/
theorem Shares.advance {origin : Cursor} {y y' : Draft}
    (shares : Shares p p' text blanks r b k w s s') (twins : Twins t (some y) u (some y'))
    (moved : t.cursor = s.cursor.skip n) (moved' : u.cursor = s'.cursor.skip n)
    (pos : 0 < n) (fits : n ≤ w.length) (start : y'.start = origin) :
    Copied p p' text blanks r b origin t (some y) u (some y') := by
  obtain ⟨split, more, here, there⟩ := shares
  have place : t.cursor = .between (p ++ (k ++ w.take n)) (w.drop n ++ (blanks ++ r)) := by
    rw [moved, here, Cursor.skip_between, List.take_append_of_le_length fits,
      List.drop_append_of_le_length fits, List.append_assoc]
  have place' : u.cursor = .between (p' ++ (k ++ w.take n)) (w.drop n ++ b) := by
    rw [moved', there, Cursor.skip_between, List.take_append_of_le_length fits,
      List.drop_append_of_le_length fits, List.append_assoc]
  have whole : text = k ++ w.take n ++ w.drop n := by
    rw [List.append_assoc, List.take_append_drop, split]
  by_cases done : w.drop n = []
  · rw [done, List.append_nil] at whole
    rw [done, List.nil_append] at place place'
    refine .behind blanks List.suffix_rfl twins (by rw [place]; rfl) ?_ start
    rw [place', whole]
  · refine .within (k ++ w.take n) (w.drop n) ⟨whole, done, place, place'⟩ (Or.inr ?_) twins start
    refine List.append_ne_nil_of_right_ne_nil k ?_
    rw [ne_eq, List.take_eq_nil_iff]
    rintro (zero | none)
    · exact absurd pos (zero ▸ Nat.lt_irrefl 0)
    · exact more none

/-- In front of an inline delimiter no line of the text ends with a comment. -/
theorem Reprints.lineLength_lt (reprints : s.Reprints (some x) statement)
    (native : s.Native v (some x)) (spans : statement.Spans p text) (split : text = k ++ w)
    (here : s.cursor = .between (p ++ k) (w ++ (blanks ++ r)))
    (inline : statement.delimiter.aloneOnLine = false)
    (opens : v.dialect.OpensLine (w ++ (blanks ++ r))) :
    lineLength (w ++ (blanks ++ r)) < w.length := by
  have short := reprints.comment (Option.some_ne_none x) inline
    (by rw [native.dialect, here]; exact opens)
  rw [here, spans.stop, split, byteSize_append] at short
  change byteSize (p ++ k) + byteSize (currentLine (w ++ (blanks ++ r))) < _ at short
  rw [byteSize_append] at short
  by_contra long
  obtain ⟨more, line⟩ : w <+: currentLine (w ++ (blanks ++ r)) :=
    List.prefix_of_prefix_length_le (List.prefix_append w _) (List.takeWhile_prefix _)
      (Nat.le_of_not_lt long)
  rw [← line, byteSize_append] at short
  omega

section

variable {origin : Cursor}

theorem start_of_step {z : Draft} (h : Step s draft t (some z))
    (start : (draft.map (·.start)).getD s.cursor = origin) : z.start = origin :=
  (step_start h).trans start

/-- Behind the text the one passes a blank. -/
theorem step_behind (h : Step s (some x) t (some y)) (blank : ∀ c ∈ blanks, isBlank c = true)
    {tail : List Char} (last : tail <:+ blanks) (twins : Twins s (some x) s' (some z))
    (here : s.cursor.ahead = tail ++ r) (left : t.cursor.ahead = w' ++ r)
    (advances : t.cursor.ahead.length < s.cursor.ahead.length)
    (there : s'.cursor = .between (p' ++ text) b) (start : z.start = origin) :
    Copied p p' text blanks r b origin t (some y) s' (some z) := by
  obtain ⟨c, tail, rfl⟩ : ∃ c rest, tail = c :: rest := by
    refine List.exists_cons_of_ne_nil ?_
    rintro rfl
    rw [here, left, List.length_append, List.nil_append] at advances
    omega
  have gap : s.gap? (some x) c = some .blank := by
    rw [gap?, blank c (last.subset List.mem_cons_self)]
    rfl
  have pass := pass_of_gap here gap
  rw [pass_of_step h] at pass
  cases pass
  refine .behind tail ((List.suffix_cons c tail).trans last) (twins.skip 1 0) ?_ there start
  exact skip_one_ahead here

/-- Where both see the same, both take it. -/
theorem copied_of_matches (h : Step s draft t (some y)) (twins : Twins s draft s' draft')
    (same : Matches s draft s' draft') (shares : Shares p p' text blanks r b k w s s')
    (start : (draft'.map (·.start)).getD s'.cursor = origin)
    (advances : t.cursor.ahead.length < s.cursor.ahead.length)
    (moved : t.cursor = s.cursor.skip n) (fits : n ≤ w.length) :
    ∃ t' y', Passes s' draft' t' (some y') ∧
      Copied p p' text blanks r b origin t (some y) t' (some y') := by
  obtain ⟨t', e', m, step, after, short, moved₂, moved'⟩ := step_matched h twins same
  obtain ⟨y', rfl⟩ : ∃ y', e' = some y' := by
    cases after
    exact ⟨_, rfl⟩
  have whole : w.length ≤ s.cursor.ahead.length := by
    rw [shares.here]
    exact (List.prefix_append w _).length_le
  have lengths := congrArg (·.ahead.length) (moved.symm.trans moved₂)
  simp only [Cursor.skip_ahead, List.length_drop] at lengths
  have pos : 0 < n := by
    rw [moved, Cursor.skip_ahead, List.length_drop] at advances
    omega
  obtain rfl : m = n := by omega
  exact ⟨t', y', .step step (.refl t' (some y')),
    shares.advance after moved moved' pos fits (start_of_step step start)⟩

variable (printed : statement.Printed blanks r b)
include printed

/-- A comment within a statement is passed in both. It may end behind the text in the one, and
then it ends with the text in the other. -/
theorem comment_copied (spans : statement.Spans p text) (native : s.Native v (some y))
    (reprints : s.Reprints (some y) statement) (twins : Twins s (some y) s' (some z))
    (shares : Shares p p' text blanks r b k (c :: w) s s') (start : z.start = origin)
    (outside : s.delimiterLength? = none → s'.delimiterLength? = none)
    (left : (s.skip n).cursor.ahead = w' ++ r)
    (found : s.gap? (some y) c = some (.comment (.closed n))) :
    ∃ t' y', Passes s' (some z) t' (some y') ∧
      Copied p p' text blanks r b origin (s.skip n) (some y) t' (some y') := by
  obtain ⟨solid, comment⟩ := comment_of_gap? found
  have none : s.delimiterLength? = none := by
    cases length : s.delimiterLength? with
    | none => rfl
    | some k => simp [gap?, solid, length] at found
  have whole : s.cursor.ahead = c :: w ++ (blanks ++ r) := by rw [shares.here]; rfl
  have there : s'.cursor.ahead = c :: w ++ b := by rw [shares.there]; rfl
  have dialect : s'.dialect = v.dialect := twins.alike.dialect.trans native.dialect
  rw [native.dialect] at comment
  have short := Dialect.comment?_le comment
  rw [whole] at comment short
  rw [skip_cursor, Cursor.skip_ahead, whole] at left
  have fits := (take_before_rest (List.append_assoc (c :: w) blanks r).symm left short).1
  obtain ⟨m, comment', same⟩ := comment?_copied printed shares.more comment fits
    fun kind opens => reprints.lineLength_lt native spans shares.split shares.here kind opens
  have found' : s'.gap? (some z) c = some (.comment (.closed m)) := by
    rw [← there, ← dialect] at comment'
    simp [gap?, solid, outside none, comment']
  refine ⟨s'.skip m, z, .step (.gap there found' rfl) (.refl _ _), ?_⟩
  rcases same with ⟨rfl, inside⟩ | ⟨rfl, beyond⟩
  · exact shares.advance (twins.skip m m) rfl rfl (Dialect.comment?_pos solid comment) inside start
  · refine .behind (blanks.drop (n - (c :: w).length)) (List.drop_suffix _ _) (twins.skip _ _) ?_ ?_
      start
    · rw [skip_cursor, Cursor.skip_ahead, whole, List.drop_append,
        List.drop_eq_nil_of_le (Nat.le_of_lt beyond), List.nil_append,
        List.drop_append_of_le_length]
      rw [List.length_append] at fits
      omega
    · rw [skip_cursor, shares.there, Cursor.skip_text, List.append_assoc, ← shares.split]

/-- A gap within a statement is passed in both. -/
theorem gap_copied {g : Gap} {rest : List Char} (spans : statement.Spans p text)
    (native : s.Native v (some y)) (reprints : s.Reprints (some y) statement)
    (twins : Twins s (some y) s' draft') (shares : Shares p p' text blanks r b k w s s')
    (start : (draft'.map (·.start)).getD s'.cursor = origin)
    (outside : s.delimiterLength? = none → s'.delimiterLength? = none)
    (left : (s.skip n).cursor.ahead = w' ++ r)
    (ahead : s.cursor.ahead = c :: rest) (found : s.gap? (some y) c = some g)
    (length : g.length? = some n) :
    ∃ t' y', Passes s' draft' t' (some y') ∧
      Copied p p' text blanks r b origin (s.skip n) (some y) t' (some y') := by
  obtain ⟨y', rfl⟩ : ∃ y', draft' = some y' := by
    cases twins
    exact ⟨_, rfl⟩
  obtain ⟨w, rfl⟩ : ∃ more, w = c :: more := by
    obtain ⟨z, w, rfl⟩ := List.exists_cons_of_ne_nil shares.more
    rw [shares.here] at ahead
    exact ⟨w, by rw [(List.cons.inj ahead).1]⟩
  have ahead' : s'.cursor.ahead = c :: (w ++ b) := by rw [shares.there]; rfl
  cases g with
  | delimiter => cases length
  | terminator =>
    obtain ⟨-, none, -⟩ := terminator_of_gap? found
    cases none
  | blank =>
    cases length
    have found' : s'.gap? (some y') c = some .blank := by
      rw [gap?, blank_of_gap? found]
      rfl
    refine ⟨s'.skip 1, y', .step (.gap ahead' found' rfl) (.refl _ _), ?_⟩
    exact shares.advance (twins.skip 1 1) rfl rfl Nat.one_pos
      (Nat.succ_le_succ (Nat.zero_le _)) start
  | comment extent =>
    cases extent with
    | unclosed => cases length
    | closed m =>
      cases length
      exact comment_copied printed spans native reprints twins shares start outside left found

/-- A token is taken in both. -/
theorem token_copied (trimmed : Trimmed text) (spans : statement.Spans p text)
    (native : s.Native v draft) (reprints : s.Reprints draft statement)
    (h : Step s draft t (some y)) (twins : Twins s draft s' draft')
    (shares : Shares p p' text blanks r b k w s s')
    (start : (draft'.map (·.start)).getD s'.cursor = origin)
    (outside : s.delimiterLength? = none → s'.delimiterLength? = none)
    (standing : draft' = none → s'.atTerminator = false)
    (left : t.cursor.ahead = w' ++ r) (advances : t.cursor.ahead.length < s.cursor.ahead.length)
    (solid : ∀ c ∈ s.cursor.ahead.head?, s.gap? draft c = none) :
    ∃ t' y', Passes s' draft' t' (some y') ∧
      Copied p p' text blanks r b origin t (some y) t' (some y') := by
  have whole : s.cursor.ahead = w ++ (blanks ++ r) := by rw [shares.here]; rfl
  have same : ∀ {c rest u x}, s.cursor.ahead = c :: rest → s.begin draft = .ok (u, x) →
      (∀ extent, u.dialect.token u.context.startsWord c rest = .text extent →
        ∃ n, extent = .closed n ∧ n ≤ w.length) →
      (u.dialect.token u.context.startsWord c rest = .word → u.word.length ≤ w.length ∧
        (u.mayDirect x = true → u.directive? = .ok none)) → Matches s draft s' draft' := by
    intro c rest u x ahead begun closed word
    have solid := solid c (by rw [ahead]; rfl)
    have solid' : s'.gap? draft' c = none :=
      gap?_copied printed shares.more twins.alike.dialect whole (by rw [shares.there]; rfl) native
        solid (outside (gap?_eq_none_iff.mp solid).2.1) standing
    exact matches_copied printed trimmed spans native reprints shares ahead solid solid' begun
      closed word
  have within : ∀ {n}, t.cursor = s.cursor.skip n → EndsBefore n s.cursor.ahead → n ≤ w.length := by
    intro n moved ends
    rw [moved, Cursor.skip_ahead, whole] at left
    rw [whole] at ends
    have short : n ≤ (w ++ (blanks ++ r)).length := by
      obtain ⟨m, c, rfl, here, -⟩ := ends
      exact (List.getElem?_eq_some_iff.mp here).1
    exact within_of_endsBefore printed ends
      (take_before_rest (List.append_assoc w blanks r).symm left short).1
  generalize held : some y = e at h
  cases h with
  | gap ahead found =>
    rw [solid _ (by rw [ahead]; rfl)] at found
    cases found
  | delimiter => cases held
  | directive => cases held
  | @text _ c rest u x n ahead nonblank begun token =>
    have moved : (u.skip n).cursor = s.cursor.skip n := by rw [skip_cursor, begin_cursor begun]
    have closers : ∀ pair ∈ u.dialect.identifierQuotes, isBlank pair.2 = false := by
      rw [begin_dialect begun, native.dialect]
      cases v <;> decide
    have fits := within moved (by
      rw [ahead]
      exact Dialect.token_closes (gap?_eq_none_iff.mp nonblank).1 closers token)
    have matches_ := same ahead begun (by
      intro extent other
      rw [token] at other
      cases other
      exact ⟨n, rfl, fits⟩) (by simp [token])
    exact copied_of_matches (held ▸ .text ahead nonblank begun token) twins matches_ shares start
      advances moved fits
  | @symbol _ c rest u x ahead nonblank begun token =>
    have moved : ((u.skip 1).countParen c).cursor = s.cursor.skip 1 := by
      rw [countParen_eq, skip_cursor, begin_cursor begun]
    have matches_ := same ahead begun (by simp [token]) (by simp [token])
    exact copied_of_matches (held ▸ .symbol ahead nonblank begun token) twins matches_ shares start
      advances moved (List.length_pos_iff.mpr shares.more)
  | @word _ _ c rest u t x ahead nonblank begun token plain taken =>
    have moved : t.cursor = s.cursor.skip u.word.length := by
      rw [takeWord_cursor taken, afterWord, skip_cursor, begin_cursor begun]
    have fits : u.word.length ≤ w.length := by
      rcases endsBefore_word u.context u.cursor.ahead with none | ends
      · rw [word, none]
        exact Nat.zero_le _
      · exact within moved (begin_cursor begun ▸ ends)
    have matches_ := same ahead begun (by simp [token]) fun _ => ⟨fits, plain⟩
    subst held
    exact copied_of_matches (.word ahead nonblank begun token plain taken) twins matches_ shares
      start advances moved fits

/-- Every step of the statement is taken in both. -/
theorem step_copied (trimmed : Trimmed text) (spans : statement.Spans p text)
    (native : s.Native v draft) (reprints : s.Reprints draft statement)
    (h : Step s draft t (some y))
    (alone : s.context.delimiter.aloneOnLine = true → statement.delimiter.aloneOnLine = true)
    (left : t.cursor.ahead = w' ++ r) (advances : t.cursor.ahead.length < s.cursor.ahead.length)
    (apart : draft = none → s'.delimiterLength? = none ∧ s'.atTerminator = false)
    (copied : Copied p p' text blanks r b origin s draft s' draft') :
    ∃ t' y', Passes s' draft' t' (some y') ∧
      Copied p p' text blanks r b origin t (some y) t' (some y') := by
  cases copied with
  | behind tail last twins here there start =>
    exact ⟨s', _, .refl s' _,
      step_behind h printed.blank last twins here left advances there start⟩
  | within k w shares begun twins start =>
    have outside : s.delimiterLength? = none → s'.delimiterLength? = none := by
      cases draft with
      | none => exact fun _ => (apart rfl).1
      | some x =>
        have moved := begun.resolve_left (Option.some_ne_none x)
        exact delimiterLength?_copied printed native trimmed alone twins shares moved
    have standing : draft' = none → s'.atTerminator = false := by
      rintro rfl
      cases twins
      exact (apart rfl).2
    by_cases solid : ∀ c ∈ s.cursor.ahead.head?, s.gap? draft c = none
    · exact token_copied printed trimmed spans native reprints h twins shares start outside
        standing left advances solid
    · have token : ∀ {c rest}, s.cursor.ahead = c :: rest → s.gap? draft c ≠ none := by
        intro c rest ahead nothing
        refine solid fun z head => ?_
        rw [ahead] at head
        cases head
        exact nothing
      generalize held : some y = e at h
      cases h with
      | gap ahead found length =>
        subst held
        exact gap_copied printed spans native reprints twins shares start outside left ahead found
          length
      | delimiter => cases held
      | text ahead nothing => exact absurd nothing (token ahead)
      | symbol ahead nothing => exact absurd nothing (token ahead)
      | directive => cases held
      | word ahead nothing => exact absurd nothing (token ahead)

end

end Session

end SqlBoundary
