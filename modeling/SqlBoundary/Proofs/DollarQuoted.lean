import SqlBoundary.Proofs.OneLine
import SqlBoundary.Proofs.QuotedText

/-!
# Dollar-quoted texts

A dollar opens a text if a tag and a second dollar follow it. The text then ends at the first
place where the tag stands again with its dollars, and nothing in between is looked at, not even
another tag. Three searches decide this, for the end of the tag, for the dollar behind it and for
the second tag; here each is told by how it cuts the text ahead.

The second tag is looked for behind the first, so that they do not share a dollar. A tag may
overlap with itself further on, and the body may end with the beginning of one: only the first
whole occurrence counts.
-/

namespace SqlBoundary

open Text Lexeme

/-- A tag with both of its dollars. -/
def dollarMark (tag : List Char) : List Char := '$' :: tag ++ ['$']

/-- Behind a dollar stands a run of letters, digits and underscores as long as it can be, which
no digit begins, and then a second dollar. -/
structure OpensDollar (behind tag body : List Char) : Prop where
  run : behind.takeWhile isTagChar = tag
  split : behind = tag ++ '$' :: body
  parameter : ∀ c ∈ behind.head?, c.isDigit = false

/-- The first place in the body where the mark stands is between these two parts. -/
structure FirstMark (mark body inner after : List Char) : Prop where
  split : body = inner ++ mark ++ after
  first : ∀ before later, body = before ++ mark ++ later → inner.length ≤ before.length

section searches

variable {behind tag body mark inner after : List Char} {n : Nat}

theorem OpensDollar.of_isTag (isTag : IsTag tag) (body : List Char) :
    OpensDollar (tag ++ '$' :: body) tag body := by
  have stops : ¬ isTagChar '$' = true := by decide
  refine ⟨?_, rfl, ?_⟩
  · rw [List.takeWhile_append_of_pos isTag.chars, List.takeWhile_cons_of_neg stops,
      List.append_nil]
  · intro c head
    cases tag with
    | nil =>
      cases head
      decide
    | cons x tag =>
      cases head
      simpa using isTag.parameter

theorem dollarTag?_eq_some_iff_opens :
    dollarTag? behind = some tag ↔ ∃ body, OpensDollar behind tag body := by
  constructor
  · intro found
    obtain ⟨⟨body, rfl⟩, chars, parameter⟩ := dollarTag?_eq_some_iff.mp found
    refine ⟨body, .of_isTag ⟨chars, ?_⟩ body⟩
    cases tag with
    | nil => rfl
    | cons x tag => exact parameter
  · rintro ⟨body, rfl, split, parameter⟩
    refine dollarTag?_eq_some_iff.mpr ⟨⟨body, split⟩, ?_, ?_⟩
    · exact fun c mem => List.all_eq_true.mp List.all_takeWhile c mem
    · rw [Option.any_eq_false]
      exact fun c head => by simpa using parameter c head

theorem FirstMark.position? (h : FirstMark mark body inner after) :
    Text.position? mark body = some inner.length := by
  obtain ⟨rfl, first⟩ := h
  refine position?_eq_some_iff.mpr ⟨⟨after, ?_⟩, ?_, ?_⟩
  · rw [List.append_assoc, List.drop_left]
  · simp only [List.length_append]
    omega
  · rintro m short ⟨later, here⟩
    have split : inner ++ mark ++ after =
        (inner ++ mark ++ after).take m ++ mark ++ later := by
      rw [List.append_assoc _ mark later, here, List.take_append_drop]
    have fits := first _ later split
    rw [List.length_take] at fits
    omega

theorem firstMark_of_position? (found : Text.position? mark body = some n) :
    FirstMark mark body (body.take n) (body.drop (n + mark.length)) := by
  obtain ⟨⟨after, here⟩, short, first⟩ := position?_eq_some_iff.mp found
  refine ⟨?_, ?_⟩
  · rw [← List.drop_drop, ← here, List.drop_left, List.append_assoc, here, List.take_append_drop]
  · rintro before later rfl
    by_contra shorter
    rw [List.length_take] at shorter
    refine first before.length (by omega) ⟨later, ?_⟩
    rw [List.append_assoc, List.drop_left]

theorem firstMark_or_never (mark body : List Char) :
    (∃ inner after, FirstMark mark body inner after) ∨ ¬ mark <:+: body := by
  cases found : Text.position? mark body with
  | none => exact Or.inr (position?_eq_none_iff.mp found)
  | some n => exact Or.inl ⟨_, _, firstMark_of_position? found⟩

/-- What follows the mark does not move its first place. -/
theorem FirstMark.append (h : FirstMark mark body inner after) (more : List Char) :
    FirstMark mark (body ++ more) inner (after ++ more) := by
  refine ⟨by rw [h.split, List.append_assoc _ after], ?_⟩
  intro before later split
  have found := position?_append more h.position?
  obtain ⟨-, -, first⟩ := position?_eq_some_iff.mp found
  by_contra shorter
  refine first before.length (Nat.lt_of_not_le shorter) ⟨later, ?_⟩
  rw [split, List.append_assoc, List.drop_left]

end searches

namespace Session

variable {s : Session} {passed behind tag body inner after : List Char}

/-- How a dollar is read with this behind it, after the characters `passed`. -/
structure ReadsDollar (s : Session) (draft : Draft) (passed behind : List Char) : Prop where
  /-- It opens a text just where a tag follows. -/
  opens : ∀ tag, s.dialect.dollarQuote? '$' behind = some tag ↔
    ∃ body, OpensDollar behind tag body
  /-- The text is passed to the end of the second tag, and nothing else changes. -/
  closed : ∀ tag body n, OpensDollar behind tag body →
    (s.GoesPast (some draft.afterText) (passed ++ dollarMark tag) body n
        (s.readToken draft '$' behind) ↔
      ∃ inner after, FirstMark (dollarMark tag) body inner after ∧
        n = byteSize (inner ++ dollarMark tag))
  /-- Without one it is a fault on the line of the dollar, and nothing changes at all. -/
  unclosed : ∀ tag body, OpensDollar behind tag body →
    (s.readToken draft '$' behind =
        .failed s (.unterminated .dollarQuotedString (1 + passed.count '\n')) ↔
      ¬ dollarMark tag <:+: body)
  /-- Without a tag the dollar is read as if there were no such texts. -/
  other : (∀ tag body, ¬ OpensDollar behind tag body) →
    s.dialect.token s.context.startsWord '$' behind =
      { s.dialect with dollarQuotes := false }.token s.context.startsWord '$' behind

theorem readToken_opened (dollars : s.dialect.dollarQuotes = true)
    (opens : OpensDollar behind tag body) (draft : Draft) :
    s.readToken draft '$' behind =
      s.passText (dollarExtent tag behind) (some draft.afterText) := by
  have found : s.dialect.dollarQuote? '$' behind = some tag := by
    rw [Dialect.dollarQuote?, dollars]
    exact dollarTag?_eq_some_iff_opens.mpr ⟨body, opens⟩
  rw [readToken, Dialect.token, found]

theorem dollarEnd?_opened (opens : OpensDollar behind tag body) :
    dollarEnd? tag behind =
      (position? (dollarMark tag) body).map (tag.length + 1 + · + (dollarMark tag).length) := by
  have rest : behind.drop (tag.length + 1) = body := by
    rw [opens.split]
    simp
  rw [dollarEnd?, rest]
  rfl

theorem readToken_closed (dollars : s.dialect.dollarQuotes = true)
    (here : s.cursor = .between passed ('$' :: behind)) (opens : OpensDollar behind tag body)
    (first : FirstMark (dollarMark tag) body inner after) (draft : Draft) :
    s.readToken draft '$' behind =
      .more { s with
        cursor := .between (passed ++ dollarMark tag ++ (inner ++ dollarMark tag)) after }
        (some draft.afterText) := by
  have text : '$' :: behind = (dollarMark tag ++ (inner ++ dollarMark tag)) ++ after := by
    rw [opens.split, first.split, dollarMark]
    simp
  have length : tag.length + 1 + inner.length + (dollarMark tag).length + 1 =
      (dollarMark tag ++ (inner ++ dollarMark tag)).length := by
    simp only [dollarMark, List.length_append, List.length_cons, List.length_nil]
    omega
  have place : s.cursor.skip (dollarMark tag ++ (inner ++ dollarMark tag)).length =
      .between (passed ++ dollarMark tag ++ (inner ++ dollarMark tag)) after := by
    rw [here, text, Cursor.skip_text, ← List.append_assoc]
  have extent : dollarExtent tag behind =
      .closed (dollarMark tag ++ (inner ++ dollarMark tag)).length := by
    rw [dollarExtent, dollarEnd?_opened opens, first.position?, ← length]
    rfl
  rw [readToken_opened dollars opens, extent, passText, skip, place]

theorem readToken_unclosed (dollars : s.dialect.dollarQuotes = true)
    (here : s.cursor = .between passed ('$' :: behind)) (opens : OpensDollar behind tag body)
    (never : ¬ dollarMark tag <:+: body) (draft : Draft) :
    s.readToken draft '$' behind =
      .failed s (.unterminated .dollarQuotedString (1 + passed.count '\n')) := by
  have extent : dollarExtent tag behind = .unclosed .dollarQuotedString 0 := by
    rw [dollarExtent, dollarEnd?_opened opens, position?_eq_none_iff.mpr never]
    rfl
  have line : s.line = 1 + passed.count '\n' := by
    rw [Session.line, here, Nat.add_comm]
    rfl
  rw [readToken_opened dollars opens, extent, passText, line]
  rfl

theorem readsDollar (dollars : s.dialect.dollarQuotes = true)
    (here : s.cursor = .between passed ('$' :: behind)) (draft : Draft) :
    s.ReadsDollar draft passed behind := by
  have asked : s.dialect.dollarQuote? '$' behind = dollarTag? behind := by
    rw [Dialect.dollarQuote?, dollars]
    rfl
  refine ⟨fun tag => ?_, fun tag body n opens => ?_, fun tag body opens => ?_, fun never => ?_⟩
  · rw [asked]
    exact dollarTag?_eq_some_iff_opens
  · constructor
    · rintro ⟨text, rest, split, rfl, result⟩
      rcases firstMark_or_never (dollarMark tag) body with ⟨inner, after, first⟩ | never
      · rw [readToken_closed dollars here opens first] at result
        have same : after = rest := congrArg (·.cursor.ahead) (Pass.more.inj result).1
        subst same
        refine ⟨inner, after, first, ?_⟩
        rw [List.append_cancel_right (first.split.symm.trans split)]
      · rw [readToken_unclosed dollars here opens never] at result
        cases result
    · rintro ⟨inner, after, first, rfl⟩
      exact ⟨inner ++ dollarMark tag, after, first.split, rfl,
        readToken_closed dollars here opens first draft⟩
  · constructor
    · intro fails
      rcases firstMark_or_never (dollarMark tag) body with ⟨inner, after, first⟩ | never
      · rw [readToken_closed dollars here opens first] at fails
        cases fails
      · exact never
    · exact fun never => readToken_unclosed dollars here opens never draft
  · have none : s.dialect.dollarQuote? '$' behind = none := by
      rw [asked, Option.eq_none_iff_forall_ne_some]
      intro tag found
      obtain ⟨body, opens⟩ := dollarTag?_eq_some_iff_opens.mp found
      exact never tag body opens
    rw [Dialect.token, none]
    rfl

/-- A statement that selects such a text, without a semicolon. -/
def selected (tag body : List Char) : List Char :=
  "SELECT".toList ++ ' ' :: (dollarMark tag ++ (body ++ dollarMark tag))

theorem trimEnd_selected (tag body : List Char) :
    trimEnd (selected tag body) = selected tag body := by
  have solid : EndsSolid (selected tag body) := by
    have last : EndsSolid (dollarMark tag) := ⟨'$' :: tag, '$', rfl, by decide⟩
    exact ((last.append body).append (' ' :: dollarMark tag)).append _
  exact trimEnd_of_solid solid

/-- A dollar is neither a gap nor the beginning of the delimiter. -/
theorem gap?_dollar {d : Draft} (dialect : s.dialect = .postgres)
    (delimiter : s.context.delimiter = .semicolon) (ahead : s.cursor.ahead = '$' :: behind) :
    s.gap? (some d) '$' = none := by
  refine gap?_eq_none_iff.mpr ⟨by decide, ?_, nofun, ?_⟩
  · rw [Option.eq_none_iff_forall_ne_some]
    intro n found
    have ordinary : Delimiter.semicolon.Ordinary := Or.inl rfl
    obtain ⟨-, ⟨alone, -⟩ | ⟨-, starts, -⟩⟩ := delimiterLength?_eq_some found
    · rw [delimiter] at alone
      cases alone
    · rw [delimiter, ahead] at starts
      exact absurd ((ordinary.startsAt (by decide)).symm.trans starts) Bool.false_ne_true
  · rw [ahead, dialect]
    rfl

/-- The text of the statement is read in three passes, and the semicolon is left. -/
theorem passes_selected {script : String} (whole : script.toList = selected tag body ++ [';'])
    (isTag : IsTag tag) (first : FirstMark (dollarMark tag) (body ++ dollarMark tag) body []) :
    ∃ t x, Passes (.ofScript .postgres .semicolon script) none t (some x) ∧
      x.start = .start script.toList ∧ t.cursor.ahead = [';'] ∧ t.context.blocks = [] ∧
      t.context.parens = 0 ∧ t.context.delimiter = .semicolon := by
  let behind := tag ++ '$' :: (body ++ dollarMark tag ++ [';'])
  have text : script.toList = "SELECT".toList ++ ' ' :: '$' :: behind := by
    rw [whole]
    change "SELECT".toList ++ ' ' :: (dollarMark tag ++ (body ++ dollarMark tag)) ++ [';'] = _
    simp [dollarMark, behind]
  let s := ofScript Vendor.postgres.dialect Vendor.postgres.dialect.defaultDelimiter script
  let u := { s with context := { s.context with kind := Vendor.postgres.dialect.kind } }.skip
    "SELECT".toList.length
  let d := (Draft.begin s.cursor).afterWord "SELECT"
  have word : s.pass none = .more u (some d) :=
    pass_first "SELECT" (by decide) text (by simp [wordEnds])
  have place : u.cursor = .between "SELECT".toList ([' '] ++ '$' :: behind) := by
    have passed := Cursor.skip_text [] "SELECT".toList (' ' :: '$' :: behind)
    rw [← text] at passed
    exact passed
  have blank : ∀ c ∈ [' '], isBlank c = true := by decide
  have blanks : Passes u (some d) (u.skip 1) (some d) :=
    passes_blanks blank (by rw [place]; rfl)
  have here : (u.skip 1).cursor = .between ("SELECT".toList ++ [' ']) ('$' :: behind) := by
    rw [skip_cursor, place]
    exact Cursor.skip_text _ [' '] _
  have next : (u.skip 1).cursor.ahead = '$' :: behind := by rw [here]; rfl
  have closes := readToken_closed (s := u.skip 1) rfl here (.of_isTag isTag _)
    (first.append [';']) d
  have quoted := (pass_of_begin next (gap?_dollar rfl rfl next) rfl).trans closes
  exact ⟨_, _, .step (step_of_pass word) (passes_trans blanks (.step (step_of_pass quoted)
    (.refl _ _))), rfl, rfl, rfl, rfl, rfl⟩

theorem split_selected (isTag : IsTag tag)
    (first : FirstMark (dollarMark tag) (body ++ dollarMark tag) body []) :
    split .postgres (String.ofList (selected tag body ++ [';'])) =
      .ok [⟨1, 0, byteSize (selected tag body), String.ofList (selected tag body),
        .semicolon⟩] := by
  have whole : (String.ofList (selected tag body ++ [';'])).toList = selected tag body ++ [';'] :=
    String.toList_ofList
  generalize String.ofList (selected tag body ++ [';']) = script at whole ⊢
  obtain ⟨t, x, passes, start, ahead, outside, level, delimiter⟩ :=
    passes_selected whole isTag first
  have alone := (splitFrom_of_semicolon passes start whole ahead outside level delimiter).1
  rw [trimEnd_selected] at alone
  exact alone

/-- A dollar opens a text just where a tag follows it, and the text ends behind the first place
where the tag stands again; without one, and without a tag, nothing is passed. So a statement is
kept whole whatever its text holds, if the tag stands again only behind that. -/
theorem split_dollarQuoted :
    (∀ (s : Session) (draft : Draft) (passed behind : List Char),
      s.dialect.dollarQuotes = true → s.cursor = .between passed ('$' :: behind) →
      s.ReadsDollar draft passed behind) ∧
    ∀ tag body : List Char, IsTag tag →
      FirstMark (dollarMark tag) (body ++ dollarMark tag) body [] →
      split .postgres (String.ofList (selected tag body ++ [';'])) =
        .ok [⟨1, 0, byteSize (selected tag body), String.ofList (selected tag body), .semicolon⟩] :=
  ⟨fun _ draft _ _ dollars here => readsDollar dollars here draft,
    fun _ _ isTag first => split_selected isTag first⟩

/-- A tag with a letter of two bytes around a delimiter, another tag, a keyword, a line feed and
an open quote. -/
theorem split_dollarQuoted_body :
    let body := "a; $$ END\n'".toList
    let s := (ofScript .postgres .semicolon "SELECT $é1$a; $$ END\n'$é1$;").skip 7
    s.ReadsDollar (.begin s.cursor) "SELECT ".toList ("é1$a; $$ END\n'$é1$;".toList) ∧
      FirstMark (dollarMark "é1".toList) (body ++ dollarMark "é1".toList) body [] ∧
      split .postgres "SELECT $é1$a; $$ END\n'$é1$;" =
        .ok [⟨1, 0, 28, "SELECT $é1$a; $$ END\n'$é1$", .semicolon⟩] := by
  intro body s
  have here : s.cursor = .between "SELECT ".toList ('$' :: "é1$a; $$ END\n'$é1$;".toList) := by
    decide +kernel
  have isTag : IsTag "é1".toList := ⟨by decide +kernel, by decide +kernel⟩
  have found : position? (dollarMark "é1".toList) (body ++ dollarMark "é1".toList) =
      some body.length := by decide +kernel
  have first : FirstMark (dollarMark "é1".toList) (body ++ dollarMark "é1".toList) body [] := by
    have first := firstMark_of_position? found
    rwa [List.take_left, List.drop_eq_nil_of_le (by simp)] at first
  have whole := split_dollarQuoted.2 _ _ isTag first
  have script : String.ofList (selected "é1".toList body ++ [';']) =
      "SELECT $é1$a; $$ END\n'$é1$;" := by decide +kernel
  have text : String.ofList (selected "é1".toList body) = "SELECT $é1$a; $$ END\n'$é1$" := by
    decide +kernel
  have size : byteSize (selected "é1".toList body) = 28 := by decide +kernel
  rw [script, text, size] at whole
  exact ⟨split_dollarQuoted.1 s _ _ _ rfl here, first, whole⟩

end Session

end SqlBoundary
