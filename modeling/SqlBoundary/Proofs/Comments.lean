import SqlBoundary.Proofs.Outlook

/-!
# Other gaps between tokens

Where a run over a script has come past a token, it goes on alike with other blanks and comments
in the place of those that come next. The run over the other script has come to the same place,
since nothing that was read up to there has seen the gap, passes the other gap, and finds the same
from there on. What sees a gap are the looks ahead from some words. The one for the start of a
transaction takes a comment for the next token, and with a comment after its `BEGIN` a script may
no longer be split.
-/

namespace SqlBoundary

open Text Lexeme

/-- A dialect whose delimiters stand within a line, and whose tokens end before a gap. -/
structure Dialect.Spacing (dialect : Dialect) : Prop where
  steadfast : dialect.Steadfast
  gaps : dialect.EndsAtGaps
  searches : dialect.blocks = .mysql → dialect.Searches

theorem Vendor.spacing {v : Vendor} (vendor : v = .generic ∨ v = .mysql ∨ v = .postgres) :
    v.dialect.Spacing where
  steadfast := Vendor.steadfast (by rcases vendor with rfl | rfl | rfl <;> decide)
  gaps := Vendor.endsAtGaps vendor
  searches := by
    intro grammar
    rcases vendor with rfl | rfl | rfl
    · cases grammar
    · exact Or.inl rfl
    · cases grammar

namespace Session

variable {s s' t u z : Session} {draft draft' e f : Option Draft} {r : Draft}
variable {found : List Statement} {dialect : Dialect} {vendor : Vendor} {script script' : String}
variable {p q x y a b k w : List Char}

/-- What a run keeps in such a dialect. -/
structure Regular (dialect : Dialect) (s : Session) (draft : Option Draft) : Prop where
  dialect : s.dialect = dialect
  live : s.exhausted = false
  inline : s.Inline
  own : s.context.delimiter = s.scriptDelimiter
  oneLine : '\n' ∉ s.scriptDelimiter.text.toList
  typed : s.Typed draft

theorem step_regular (h : Step s draft t e) (regular : Regular dialect s draft) :
    Regular dialect t e := by
  have dialect' : t.dialect = dialect := (step_dialect h).trans regular.dialect
  have inline := step_inline h regular.inline
  refine ⟨dialect', (step_exhausted h).trans regular.live, inline, ?_, ?_,
    step_typed h regular.typed⟩
  · rcases step_owned h (Or.inl regular.own) with own | ⟨-, grammar, -⟩
    · exact own
    · exact absurd grammar inline.dialect.grammar
  · rcases step_sets h with same | ⟨d, same, line⟩
    · rw [same]
      exact regular.oneLine
    · rw [same]
      exact oneLine_of_directive? line

theorem found_regular {statement : Statement} (h : s.pass draft = .found t statement)
    (regular : Regular dialect s draft) : Regular dialect t none := by
  have inline : s.restored.Inline := inline_restored regular.inline
  obtain ⟨n, rfl⟩ := restored_of_found h
  exact ⟨regular.dialect, regular.live, ⟨inline.active, inline.script, inline.dialect⟩, rfl,
    regular.oneLine, typed_none _⟩

theorem visits_regular {d : Delimiter} (steadfast : dialect.Steadfast)
    (inline : d.aloneOnLine = false) (oneLine : '\n' ∉ d.text.toList)
    (h : Visits dialect d script s draft found) : Regular dialect s draft := by
  induction h with
  | start => exact ⟨rfl, rfl, ⟨inline, inline, steadfast⟩, rfl, oneLine, typed_none _⟩
  | step _ step ih => exact step_regular step ih
  | found _ pass ih => exact found_regular pass ih

/-- The statements of the script are those found so far and those still to come. -/
theorem splitFrom_of_regular {d : Delimiter} (steadfast : dialect.Steadfast)
    (inline : d.aloneOnLine = false) (oneLine : '\n' ∉ d.text.toList)
    (h : Visits dialect d script s draft found) :
    splitFrom dialect d script = (s.onward draft).map (found ++ ·) := by
  induction h with
  | start =>
    rw [onward_none rfl, splitFrom]
    cases (ofScript dialect d script).remaining.2 <;> rfl
  | @step s t draft e found before step ih =>
    have grammar := (visits_regular steadfast inline oneLine before).inline.dialect.grammar
    rw [ih, onward_of_more (classified_of_grammar grammar) (pass_of_step step)]
  | @found s t draft found statement before pass ih =>
    have live := (visits_regular steadfast inline oneLine (.found before pass)).live
    rw [ih, onward_of_found live pass]
    cases t.onward none with
    | error fault => rfl
    | ok later => simp [Except.map]

/-- The two sessions stand at the same place of `p`, and differ in what comes after `p`. -/
structure Twinned (p a b : List Char) (s : Session) (draft : Option Draft) (s' : Session)
    (draft' : Option Draft) : Prop where
  twins : Twins s draft s' draft'
  facing : Facing p a b s.cursor s'.cursor
  together : Together (Facing p a b) draft draft'

theorem Twinned.ahead (twinned : Twinned p a b s draft s' draft')
    (ahead : s.cursor.ahead = k ++ a) : s'.cursor.ahead = k ++ b := by
  obtain ⟨p₀, p₁, -, place, place'⟩ := twinned.facing.places
  rw [place] at ahead
  obtain rfl : p₁ = k := List.append_cancel_right ahead
  rw [place']
  rfl

theorem start_twinned {d : Delimiter} (whole : script.toList = p ++ a)
    (whole' : script'.toList = p ++ b) :
    Twinned p a b (ofScript dialect d script) none (ofScript dialect d script') none := by
  refine ⟨.between _ _ _, .intro ⟨[], p, rfl, ?_, ?_⟩, .none⟩
  · rw [← whole, ← Cursor.start_eq_between]
    rfl
  · rw [← whole', ← Cursor.start_eq_between]
    rfl

theorem step_twinned (h : Step s draft t e) (inline : s.Inline)
    (twinned : Twinned p a b s draft s' draft') (more : a ≠ []) (ahead : s.cursor.ahead = k ++ a)
    (rest : t.cursor.ahead = w ++ a) (sees : s.Sees draft (k ++ b)) :
    ∃ t' e', Step s' draft' t' e' ∧ Twinned p a b t e t' e' := by
  rw [← twinned.ahead ahead] at sees
  obtain ⟨t', e', n, step, twins, moved, moved'⟩ := step_twin h inline twinned.twins sees
  refine ⟨t', e', step, twins, ?_, twins.together twinned.together twinned.facing h step⟩
  rw [moved] at rest
  rw [moved, moved']
  exact (facing_skip twinned.facing more rest).1

theorem found_twinned {statement : Statement} (h : s.pass draft = .found t statement)
    (inline : s.Inline) (twinned : Twinned p a b s draft s' draft') (more : a ≠ [])
    (ahead : s.cursor.ahead = k ++ a) (rest : t.cursor.ahead = w ++ a)
    (sees : s.Sees draft (k ++ b)) :
    ∃ t', s'.pass draft' = .found t' statement ∧ statement.stop ≤ byteSize p ∧
      Twinned p a b t none t' none := by
  rw [← twinned.ahead ahead] at sees
  obtain ⟨d, d', t', n, rfl, rfl, cut, pass, twins, moved, moved'⟩ :=
    found_twin h inline twinned.twins sees
  cases twinned.together with
  | some starts =>
    obtain ⟨same, short⟩ := cut_facing twinned.twins.alike.delimiter starts twinned.facing
    rw [moved] at rest
    refine ⟨t', by rw [pass, same, cut], cut ▸ short, twins, ?_, .none⟩
    rw [moved, moved']
    exact (facing_skip twinned.facing more rest).1

/-- A run that has come to a place before the gap has passed the rest of `p`. -/
theorem visits_before {d : Delimiter} (h : Visits dialect d script s draft found)
    (whole : script.toList = p ++ a) (ahead : s.cursor.ahead = k ++ a) :
    ∃ p₀, p = p₀ ++ k ∧ s.cursor = .between p₀ (k ++ a) := by
  obtain ⟨p₀, split, place⟩ := visits_place h
  rw [ahead] at place split
  rw [whole, ← List.append_assoc] at split
  exact ⟨p₀, List.append_cancel_right split, place⟩

/-- After `p` the session has come to the gap `x`, and would pass `y` as a gap as well. Neither a
delimiter nor a pair of dashes begins in `p` and ends in a gap. -/
structure Exchanges (z : Session) (f : Option Draft) (p x y q : List Char) : Prop where
  nonempty : x ≠ []
  nonempty' : y ≠ []
  spaced : z.Spaced f q x
  spaced' : z.Spaced f q y
  dash : p.getLast? = some '-' → y.head? ≠ some '-'
  apart : ¬ z.context.delimiter.Straddles p (x ++ q)
  apart' : ¬ z.context.delimiter.Straddles p (y ++ q)

/-- The search for a keyword takes everything from the one place up to the other for what it is. -/
def WellRead (dialect : Dialect) (script : String) (start stop : Nat) : Prop :=
  ∀ {t e later}, Visits dialect .semicolon script t e later → start ≤ t.cursor.offset →
    t.cursor.offset < stop → t.misread e = false

/-- No look ahead in the run over the script sees the gap `y` in the place of `x`. A `BEGIN` right
before the gap looks at the next token, and finds a start of a transaction or not; for a
directive only the begin of the gap matters. An `IF` in a program of MySQL searches for a keyword.
The search ends before the gap, or misreads nothing up to it and knows its comments. -/
structure Unnoticed (dialect : Dialect) (script : String) (z : Session) (f : Option Draft)
    (p x y q : List Char) : Prop where
  transaction : ∀ {s draft found u r}, Visits dialect .semicolon script s draft found →
    s.Scans draft u r → u.wordText = "BEGIN" → u.afterWord.cursor.ahead = x ++ q →
    BlockGrammar.beginsTransaction (u.context.tokenAhead? (y ++ q)) =
      BlockGrammar.beginsTransaction (u.context.tokenAhead? (x ++ q))
  directive : ∀ {s draft found u r}, Visits dialect .semicolon script s draft found →
    s.Scans draft u r → u.mayDirect r = true → u.afterWord.cursor.ahead = x ++ q →
    y.head?.any isBlank = x.head?.any isBlank
  search : ∀ {s draft found u r w}, Visits dialect .semicolon script s draft found →
    s.Scans draft u r → u.dialect.blocks = .mysql → u.wordText = "IF" → u.context.blocks ≠ [] →
    r.clauseStart = true → u.afterWord.cursor.ahead = w ++ (x ++ q) →
    (∃ keyword, ∀ after, nextKeyword? (w ++ after) BlockGrammar.branchKeywords = keyword) ∨
      z.hashless.Spaced f q x ∧ z.hashless.Spaced f q y ∧
        WellRead dialect script s.cursor.offset (byteSize p)

theorem WellRead.mono {start start' stop : Nat} (well : WellRead dialect script start stop)
    (later : start ≤ start') : WellRead dialect script start' stop :=
  fun visits after before => well visits (Nat.le_trans later after) before

/-- If nothing is misread before the gaps, the search finds no difference between them. -/
def Tells (dialect : Dialect) (script : String) (p a b : List Char) (s : Session) (k : List Char) :
    Prop :=
  dialect.Searches → Interchangeable a b → WellRead dialect script s.cursor.offset (byteSize p) →
    Indifferent a b k

theorem Exchanges.here (ex : z.Exchanges f p x y q) : Breaks (x ++ q) :=
  ex.spaced.breaks ex.nonempty

theorem Exchanges.there (ex : z.Exchanges f p x y q) : Breaks (y ++ q) :=
  ex.spaced'.breaks ex.nonempty'

theorem Exchanges.dash' (ex : z.Exchanges f p x y q) (suffix : k <:+ p) :
    k.getLast? = some '-' → (y ++ q).head? ≠ some '-' := by
  intro last
  obtain ⟨c, rest, split⟩ := List.exists_cons_of_ne_nil ex.nonempty'
  obtain ⟨p₀, rfl⟩ := suffix
  have dash := ex.dash (by rw [List.getLast?_append, last]; rfl)
  rw [split] at dash ⊢
  exact dash

/-- What the session sees in front of the gap, wherever it stands in `p`. -/
theorem Exchanges.outlook (ex : z.Exchanges f p x y q) (spacing : dialect.Spacing)
    (regular : Regular dialect s draft) (suffix : k <:+ p) (nonempty : k ≠ [])
    (ahead : s.cursor.ahead = k ++ (x ++ q))
    (delimiter : s.context.delimiter = z.context.delimiter ∨ '\n' ∈ k) :
    s.Outlook k (x ++ q) (y ++ q) where
  inline := regular.inline
  gaps := regular.dialect ▸ spacing.gaps
  here := ex.here
  there := ex.there
  ahead := ahead
  nonempty := nonempty
  dash := fun alone => ex.dash' suffix (by rw [alone]; rfl)
  starts := by
    intro r some_ within reaches
    rcases delimiter with same | feed
    · have inside : r <:+ p := within.trans suffix
      rw [same, Delimiter.startsAt_of_apart ex.apart some_ inside,
        Delimiter.startsAt_of_apart ex.apart' some_ inside]
    · have oneLine : '\n' ∉ s.context.delimiter.text.toList := by
        rw [regular.own]
        exact regular.oneLine
      rw [Delimiter.startsAt_of_lineFeed oneLine (reaches feed),
        Delimiter.startsAt_of_lineFeed oneLine (reaches feed)]

/-- The delimiter is that before the gap, or a line ends before it. -/
theorem delimiter_before {d : Delimiter} (regular : Regular dialect s draft) (h : Step s draft t e)
    (rest : t.cursor.ahead = w ++ a) (last : w = [] → t.scriptDelimiter = s.scriptDelimiter)
    (after : t.context.delimiter = d ∨ '\n' ∈ w) : s.context.delimiter = d ∨ '\n' ∈ k ++ w := by
  have own : t.context.delimiter = t.scriptDelimiter := (step_regular h regular).own
  rcases after with same | feed
  · rcases step_script h with kept | ⟨-, x, ⟨-, -, -, -, -, -⟩⟩
    · exact Or.inl (by rw [← same, own, kept, regular.own])
    · by_cases inside : w = []
      · exact Or.inl (by rw [← same, own, last inside, regular.own])
      · exact Or.inr (List.mem_append_right k (feed_of_direct rest inside))
  · exact Or.inr (List.mem_append_right k feed)

/-- The looks from a word ahead of a step that ends before the gap do not see it. -/
theorem Unnoticed.overlooks (un : Unnoticed dialect script z f p x y q)
    (ex : z.Exchanges f p x y q) (spacing : dialect.Spacing)
    (visits : Visits dialect .semicolon script s draft found) (regular : Regular dialect s draft)
    (h : Step s draft t e) (rest : t.cursor.ahead = w ++ (x ++ q))
    (solid : e ≠ none → w = [] ∨ ∃ c ∈ w, isBlank c = false)
    (later : s.cursor.offset ≤ t.cursor.offset)
    (tells : Tells dialect script p (x ++ q) (y ++ q) t w)
    (scans : s.Scans draft u r) (left : u.afterWord.cursor.ahead = k ++ (x ++ q)) :
    u.Overlooks r k (x ++ q) (y ++ q) := by
  have same : u.wordText ≠ "END" → u.wordText ≠ "DELIMITER" → k = w ∧ e ≠ none := by
    intro open_ plain
    have taken := (scans.pass open_ plain).symm.trans (pass_of_step h)
    obtain ⟨rfl, rfl⟩ := Pass.more.inj taken
    rw [classify_eq, openBlock_eq] at rest
    exact ⟨List.append_cancel_right (left.symm.trans rest), Option.some_ne_none _⟩
  refine ⟨?_, ?_, ?_⟩
  · intro begin
    obtain ⟨rfl, held⟩ := same (by simp [begin]) (by simp [begin])
    rcases solid held with rfl | solid
    · exact un.transaction visits scans begin left
    · have kind : u.context.kind = dialect.kind := by
        rw [typed_begin regular.typed scans.begun, regular.dialect]
      rw [Dialect.Stops.tokenAhead? (ex.here.stops spacing.gaps) (ex.there.stops spacing.gaps) kind
        solid]
  · intro grammar text inside clause
    obtain ⟨rfl, -⟩ := same (by simp [text]) (by simp [text])
    rcases un.search visits scans grammar text inside clause left with
      ⟨keyword, ends⟩ | ⟨hx, hy, well⟩
    · rw [ends, ends]
    · rw [begin_dialect scans.begun, regular.dialect] at grammar
      have alike := hx.interchangeable hy ex.nonempty ex.nonempty'
      exact (tells (spacing.searches grammar) alike (well.mono later)).same _ 0
  · rintro rfl may
    obtain ⟨c, more, rfl⟩ := List.exists_cons_of_ne_nil ex.nonempty
    obtain ⟨c', more', rfl⟩ := List.exists_cons_of_ne_nil ex.nonempty'
    exact un.directive visits scans may left

/-- Where two states of a run are that stand before the gap. -/
theorem visits_places {found' : List Statement}
    (hs : Visits dialect .semicolon script s draft found)
    (ht : Visits dialect .semicolon script t e found') (whole : script.toList = p ++ a)
    (ahead : s.cursor.ahead = k ++ w ++ a) (rest : t.cursor.ahead = w ++ a) :
    k ++ w <:+ p ∧ s.cursor.offset ≤ t.cursor.offset ∧
      (k ++ w ≠ [] → s.cursor.offset < byteSize p) := by
  obtain ⟨p₀, split, place⟩ := visits_before hs whole ahead
  obtain ⟨p₁, split', place'⟩ := visits_before ht whole rest
  obtain rfl : p₁ = p₀ ++ k := by
    rw [split, ← List.append_assoc] at split'
    exact (List.append_cancel_right split').symm
  refine ⟨⟨p₀, split.symm⟩, ?_, ?_⟩
  · rw [place, place']
    change byteSize p₀ ≤ byteSize (p₀ ++ k)
    rw [byteSize_append]
    omega
  · intro nonempty
    obtain ⟨c, more, parts⟩ := List.exists_cons_of_ne_nil nonempty
    have pos := c.utf8Size_pos
    rw [place, split, byteSize_append, parts]
    change byteSize p₀ < byteSize p₀ + (c.utf8Size + byteSize more)
    omega

/-- What a delimiter before the gap takes. -/
theorem cut_of_delimiter {c : Char} {cs : List Char} {n : Nat} (here : s.cursor.ahead = c :: cs)
    (gap : s.gap? draft c = some (.delimiter n)) (rest : (s.cursor.skip n).ahead = w ++ a) :
    ∃ k, s.cursor.ahead = k ++ w ++ a ∧ k.head? = some c := by
  refine ⟨s.cursor.ahead.take n, ?_, ?_⟩
  · rw [Cursor.skip_ahead] at rest
    rw [List.append_assoc, ← rest, List.take_append_drop]
  · obtain ⟨m, rfl⟩ := Nat.exists_eq_succ_of_ne_zero (Nat.ne_of_gt (delimiter_pos here gap))
    rw [here]
    rfl

/-- The delimiter that ends a statement before the gap. -/
theorem cut_of_found {statement : Statement} (pass : s.pass draft = .found t statement)
    (rest : t.cursor.ahead = w ++ a) (more : a ≠ []) :
    ∃ c cs n k, s.cursor.ahead = c :: cs ∧ s.gap? draft c = some (.delimiter n) ∧
      t = (s.skip n).restored ∧ s.cursor.ahead = k ++ w ++ a ∧ k.head? = some c := by
  obtain ⟨-, -, -, ⟨c, cs, n, split, gap, rfl⟩ | ⟨ended, -, rfl⟩⟩ := pass_found pass
  · obtain ⟨k, parts, head⟩ := cut_of_delimiter split gap rest
    exact ⟨c, cs, n, k, split, gap, rfl, parts, head⟩
  · have none : s.restored.cursor.ahead = [] := ended
    rw [none] at rest
    exact absurd (List.append_eq_nil_iff.mp rest.symm).2 more

/-- A run over the other script comes to the same place before the gap, with the same statements
found. -/
def Followed (dialect : Dialect) (script' : String) (p a b : List Char) (s : Session)
    (draft : Option Draft) (found : List Statement) : Prop :=
  ∃ s' draft', Visits dialect .semicolon script' s' draft' found ∧ Twinned p a b s draft s' draft' ∧
    ∀ statement ∈ found, statement.stop ≤ byteSize p

theorem Followed.step (followed : Followed dialect script' p a b s draft found)
    (exchanged : ∀ {s' draft'}, Twinned p a b s draft s' draft' →
      ∃ t' e', Step s' draft' t' e' ∧ Twinned p a b t e t' e') :
    Followed dialect script' p a b t e found := by
  obtain ⟨s', draft', visits, twinned, stops⟩ := followed
  obtain ⟨t', e', step, later⟩ := exchanged twinned
  exact ⟨t', e', .step visits step, later, stops⟩

theorem Followed.find {statement : Statement}
    (followed : Followed dialect script' p a b s draft found)
    (exchanged : ∀ {s' draft'}, Twinned p a b s draft s' draft' → ∃ t',
      s'.pass draft' = .found t' statement ∧ statement.stop ≤ byteSize p ∧
        Twinned p a b t none t' none) :
    Followed dialect script' p a b t none (found ++ [statement]) := by
  obtain ⟨s', draft', visits, twinned, stops⟩ := followed
  obtain ⟨t', pass, stop, later⟩ := exchanged twinned
  refine ⟨t', none, .found visits pass, later, ?_⟩
  intro other mem
  rcases List.mem_append.mp mem with mem | mem
  · exact stops other mem
  · rw [List.mem_singleton.mp mem]
    exact stop

/-- Within a statement, a line is given up only for a directive, which is not blank. -/
theorem solid_before (h : Step s draft t e) (ahead : s.cursor.ahead = k ++ w ++ a)
    (inside : w ≠ []) (held : e ≠ none → ∃ c ∈ w, isBlank c = false) :
    draft ≠ none → ∃ c ∈ k ++ w, isBlank c = false := by
  intro pending
  cases e with
  | some r =>
    obtain ⟨c, mem, solid⟩ := held (Option.some_ne_none r)
    exact ⟨c, List.mem_append_right k mem, solid⟩
  | none =>
    cases h with
    | gap => exact absurd rfl pending
    | delimiter => exact absurd rfl pending
    | @directive _ c rest _ _ _ split solid =>
      obtain ⟨c', more, whole⟩ :=
        List.exists_cons_of_ne_nil (List.append_ne_nil_of_right_ne_nil k inside)
      rw [whole, split] at ahead
      obtain ⟨rfl, -⟩ := List.cons.inj ahead
      exact ⟨c, by rw [whole]; exact List.mem_cons_self, (gap?_eq_none_iff.mp solid).1⟩
    | word _ _ _ _ _ taken =>
      obtain ⟨none, -⟩ := takeWord_more taken
      cases none

/-- The run over the script begins with this state, or has come to it by a token of a statement,
by a delimiter or, between statements, by the end of a line. -/
inductive Arrives (dialect : Dialect) (d : Delimiter) (script : String) :
    Session → Option Draft → List Statement → Prop
  | start : Arrives dialect d script (.ofScript dialect d script) none []
  | token {s t : Session} {draft : Option Draft} {r : Draft} {found : List Statement}
      (before : Visits dialect d script s draft found) (solid : s.Solid draft)
      (step : Step s draft t (some r)) : Arrives dialect d script t (some r) found
  | delimiter {s : Session} {found : List Statement} {c : Char} {rest : List Char} {n : Nat}
      (before : Visits dialect d script s none found) (ahead : s.cursor.ahead = c :: rest)
      (gap : s.gap? none c = some (.delimiter n)) :
      Arrives dialect d script (s.skip n).restored none found
  | line {s : Session} {found : List Statement} {rest : List Char}
      (before : Visits dialect d script s none found) (ahead : s.cursor.ahead = '\n' :: rest) :
      Arrives dialect d script (s.skip 1) none found
  | found {s t : Session} {draft : Option Draft} {found : List Statement} {statement : Statement}
      (before : Visits dialect d script s draft found)
      (pass : s.pass draft = .found t statement) :
      Arrives dialect d script t none (found ++ [statement])

theorem visits_of_arrives {d : Delimiter} (h : Arrives dialect d script s draft found) :
    Visits dialect d script s draft found := by
  cases h with
  | start => exact .start
  | token before _ step => exact .step before step
  | delimiter before ahead gap => exact .step before (.delimiter ahead gap)
  | line before ahead => exact .step before (.gap ahead rfl rfl)
  | found before pass => exact .found before pass

theorem Solid.first (solid : s.Solid draft) {c : Char} (head : s.cursor.ahead.head? = some c) :
    isBlank c = false := by
  rw [Bool.eq_false_iff]
  intro blank
  have gap : s.gap? draft c = some .blank := by simp only [gap?, blank, if_true]
  have none := solid c head _ gap
  cases none

/-- A token takes a character, and no session is stuck before a gap. -/
theorem nonempty_of_step (spacing : dialect.Spacing) (regular : Regular dialect s draft)
    (here : Breaks a) (h : Step s draft t e) (ahead : s.cursor.ahead = k ++ a)
    (rest : t.cursor.ahead = a) (held : e ≠ none) : k ≠ [] := by
  rintro rfl
  rcases step_advances h (classified_of_grammar regular.inline.dialect.grammar) with
    shorter | ⟨r, same, c, more, split, -, token, -⟩
  · rw [ahead, rest] at shorter
    exact Nat.lt_irrefl _ shorter
  · have kind : t.context.kind = dialect.kind :=
      (step_typed h regular.typed (Option.isSome_iff_ne_none.mpr held)).trans
        (by rw [step_dialect h, regular.dialect])
    obtain ⟨c', _, rfl, opens⟩ := here.cons
    rw [rest] at split
    obtain ⟨rfl, -⟩ := List.cons.inj split
    have ends : t.context.startsWord c' = false :=
      startsWord_of_opensGap opens (by rw [kind]; exact spacing.gaps.hash)
    rw [token_word token] at ends
    cases ends

section

variable (ex : z.Exchanges f p x y q) (un : Unnoticed dialect script z f p x y q)
variable (spacing : dialect.Spacing) (whole : script.toList = p ++ (x ++ q))
variable (whole' : script'.toList = p ++ (y ++ q))

include ex whole

theorem tells_found {statement : Statement} {c : Char} {more : List Char} {n : Nat}
    (visits : Visits dialect .semicolon script s draft found)
    (pass : s.pass draft = .found (s.skip n).restored statement)
    (split : s.cursor.ahead = c :: more)
    (gap : s.gap? draft c = some (.delimiter n)) (ahead : s.cursor.ahead = k ++ w ++ (x ++ q))
    (rest : (s.skip n).cursor.ahead = w ++ (x ++ q)) (nonempty : k ++ w ≠ [])
    (tells : Tells dialect script p (x ++ q) (y ++ q) (s.skip n).restored w) :
    Tells dialect script p (x ++ q) (y ++ q) s (k ++ w) := by
  intro searches same well
  obtain ⟨suffix, later, before⟩ := visits_places visits (.found visits pass) whole ahead rest
  have told := well visits (Nat.le_refl _) (before nonempty)
  rw [List.append_assoc] at ahead
  exact indifferent_delimiter ex.there same split gap told rfl ahead rest (ex.dash' suffix)
    (tells searches same (well.mono later))

include spacing

theorem tells_step (visits : Visits dialect .semicolon script s draft found) (h : Step s draft t e)
    (ahead : s.cursor.ahead = k ++ w ++ (x ++ q)) (rest : t.cursor.ahead = w ++ (x ++ q))
    (nonempty : k ++ w ≠ []) (last : w = [] → s.Solid draft)
    (tells : Tells dialect script p (x ++ q) (y ++ q) t w) :
    Tells dialect script p (x ++ q) (y ++ q) s (k ++ w) := by
  intro searches same well
  obtain ⟨suffix, later, before⟩ := visits_places visits (.step visits h) whole ahead rest
  have dialect' := visits_dialect visits
  have told := well visits (Nat.le_refl _) (before nonempty)
  rw [List.append_assoc] at ahead
  exact step_indifferent (dialect' ▸ searches) (dialect' ▸ spacing.gaps) ex.here ex.there same h
    told ahead rest (ex.dash' suffix) last (tells searches same (well.mono later))

/-- A statement that ends before the gap is found in both runs. -/
theorem found_exchanged {statement : Statement}
    (visits : Visits dialect .semicolon script s draft found)
    (twinned : Twinned p (x ++ q) (y ++ q) s draft s' draft')
    (pass : s.pass draft = .found t statement) (ahead : s.cursor.ahead = k ++ w ++ (x ++ q))
    (rest : t.cursor.ahead = w ++ (x ++ q)) (nonempty : k ++ w ≠ [])
    (delimiter : s.context.delimiter = z.context.delimiter ∨ '\n' ∈ k ++ w) :
    ∃ t', s'.pass draft' = .found t' statement ∧ statement.stop ≤ byteSize p ∧
      Twinned p (x ++ q) (y ++ q) t none t' none := by
  have regular := visits_regular spacing.steadfast rfl (by decide) visits
  obtain ⟨suffix, -, -⟩ := visits_places visits (.found visits pass) whole ahead rest
  have out := ex.outlook spacing regular suffix nonempty ahead delimiter
  have more : x ++ q ≠ [] := List.append_ne_nil_of_left_ne_nil ex.nonempty q
  refine found_twinned pass regular.inline twinned more ahead rest ?_
  obtain ⟨-, -, -, ⟨_, _, n, split, gap, -⟩ | ⟨ended, -⟩⟩ := pass_found pass
  · exact out.sees_gap split gap nofun
  · rw [ahead, List.append_eq_nil_iff] at ended
    exact absurd ended.1 nonempty

include un

/-- A step up to the gap is made in both runs. -/
theorem step_exchanged (visits : Visits dialect .semicolon script s draft found)
    (twinned : Twinned p (x ++ q) (y ++ q) s draft s' draft') (h : Step s draft t e)
    (ahead : s.cursor.ahead = k ++ w ++ (x ++ q)) (rest : t.cursor.ahead = w ++ (x ++ q))
    (nonempty : k ++ w ≠ []) (solid : e ≠ none → w = [] ∨ ∃ c ∈ w, isBlank c = false)
    (last : w = [] → s.Solid draft ∧ e ≠ none)
    (delimiter : s.context.delimiter = z.context.delimiter ∨ '\n' ∈ k ++ w)
    (tells : Tells dialect script p (x ++ q) (y ++ q) t w) :
    ∃ t' e', Step s' draft' t' e' ∧ Twinned p (x ++ q) (y ++ q) t e t' e' := by
  have regular := visits_regular spacing.steadfast rfl (by decide) visits
  obtain ⟨suffix, later, -⟩ := visits_places visits (.step visits h) whole ahead rest
  have out := ex.outlook spacing regular suffix nonempty ahead delimiter
  have more : x ++ q ≠ [] := List.append_ne_nil_of_left_ne_nil ex.nonempty q
  refine step_twinned h regular.inline twinned more ahead rest ?_
  refine step_sees out regular.typed h rest last ?_
  intro u r v scans left
  exact un.overlooks ex spacing visits regular h rest solid later tells scans left

include whole'

/-- Up to the gap, a run over the one script is also a run over the other. -/
theorem visits_exchanged (h : Visits dialect .semicolon script s draft found)
    (ahead : s.cursor.ahead = k ++ (x ++ q))
    (inside : k ≠ []) (solid : draft ≠ none → ∃ c ∈ k, isBlank c = false)
    (delimiter : s.context.delimiter = z.context.delimiter ∨ '\n' ∈ k)
    (tells : Tells dialect script p (x ++ q) (y ++ q) s k) :
    Followed dialect script' p (x ++ q) (y ++ q) s draft found := by
  have more : x ++ q ≠ [] := List.append_ne_nil_of_left_ne_nil ex.nonempty q
  induction h generalizing k with
  | start =>
    exact ⟨ofScript dialect .semicolon script', none, .start, start_twinned whole whole', nofun⟩
  | @step s t draft e found before step ih =>
    have regular := visits_regular spacing.steadfast rfl (by decide) before
    obtain ⟨piece, split, -⟩ := step_cut step
    rw [ahead, ← List.append_assoc] at split
    have nonempty : piece ++ k ≠ [] := List.append_ne_nil_of_right_ne_nil piece inside
    have last : ∀ {P : Prop}, k = [] → P := fun none => absurd none inside
    have active := delimiter_before (k := piece) regular step ahead last delimiter
    refine (ih split nonempty (solid_before step split inside solid) active
      (tells_step ex spacing whole before step split ahead nonempty last tells)).step ?_
    intro s' draft' twinned
    exact step_exchanged ex un spacing whole before twinned step split ahead nonempty
      (fun held => Or.inr (solid held)) last active tells
  | @found s t draft found statement before pass ih =>
    have regular := visits_regular spacing.steadfast rfl (by decide) before
    obtain ⟨c, cs, n, piece, here, gap, rfl, split, head⟩ := cut_of_found pass ahead more
    have nonempty : piece ++ k ≠ [] := List.append_ne_nil_of_right_ne_nil piece inside
    have first : ∃ c ∈ piece ++ k, isBlank c = false :=
      ⟨c, List.mem_append_left k (List.mem_of_mem_head? head), (delimiter_of_gap? gap).1⟩
    have active : s.context.delimiter = z.context.delimiter ∨ '\n' ∈ piece ++ k := by
      refine delimiter.imp (fun same => ?_) (List.mem_append_right piece)
      rw [regular.own, ← same]
      rfl
    refine (ih split nonempty (fun _ => first) active
      (tells_found ex whole before pass here gap split ahead nonempty tells)).find ?_
    intro s' draft' twinned
    exact found_exchanged ex spacing whole before twinned pass split ahead nonempty active

/-- What is passed between statements is passed in the other run, too. -/
theorem idle_exchanged {c : Char} {rest : List Char} {g : Gap}
    (before : Visits dialect .semicolon script s none found) (step : Step s none t none)
    (here : s.cursor.ahead = c :: rest) (gap : s.gap? none c = some g)
    (plain : ∀ extent, g ≠ .comment extent) (ahead : s.cursor.ahead = k ++ w ++ (x ++ q))
    (left : t.cursor.ahead = w ++ (x ++ q)) (inside : k ++ w ≠ [])
    (active : s.context.delimiter = z.context.delimiter ∨ '\n' ∈ k ++ w)
    (tells : Tells dialect script p (x ++ q) (y ++ q) s (k ++ w)) :
    Followed dialect script' p (x ++ q) (y ++ q) t none found := by
  have regular := visits_regular spacing.steadfast rfl (by decide) before
  have more : x ++ q ≠ [] := List.append_ne_nil_of_left_ne_nil ex.nonempty q
  refine (visits_exchanged ex un spacing whole whole' before ahead inside (absurd rfl) active
    tells).step ?_
  intro s' draft' twinned
  obtain ⟨suffix, -, -⟩ := visits_places before (.step before step) whole ahead left
  have out := ex.outlook spacing regular suffix inside ahead active
  exact step_twinned step regular.inline twinned more ahead left
    (out.sees_gap here gap fun extent comment => absurd comment (plain extent))

/-- So the other run comes to the gap as well. -/
theorem arrives_exchanged (h : Arrives dialect .semicolon script z f found)
    (place : z.cursor.ahead = x ++ q) :
    Followed dialect script' p (x ++ q) (y ++ q) z f found := by
  have more : x ++ q ≠ [] := List.append_ne_nil_of_left_ne_nil ex.nonempty q
  have tells : Tells dialect script p (x ++ q) (y ++ q) z [] := fun _ same _ => same.indifferent
  have place' : z.cursor.ahead = [] ++ (x ++ q) := place
  cases h with
  | start =>
    obtain rfl : p = [] := by
      have split : p ++ (x ++ q) = [] ++ (x ++ q) := whole.symm.trans place
      exact List.append_cancel_right split
    exact ⟨ofScript dialect .semicolon script', none, .start, start_twinned whole whole', nofun⟩
  | @token s _ draft r _ before solid step =>
    have regular := visits_regular spacing.steadfast rfl (by decide) before
    obtain ⟨k, split, -⟩ := step_cut step
    rw [place] at split
    have inside := nonempty_of_step spacing regular ex.here step split place (Option.some_ne_none r)
    have first : ∃ c ∈ k, isBlank c = false := by
      obtain ⟨c, rest, rfl⟩ := List.exists_cons_of_ne_nil inside
      exact ⟨c, List.mem_cons_self, solid.first (by rw [split]; rfl)⟩
    have kept : z.scriptDelimiter = s.scriptDelimiter :=
      (step_script step).resolve_right fun set => Option.some_ne_none r set.1
    rw [← List.append_nil k] at split inside
    have active : s.context.delimiter = z.context.delimiter ∨ '\n' ∈ k ++ [] :=
      delimiter_before regular step place (fun _ => kept) (Or.inl rfl)
    have told := tells_step ex spacing whole before step split place' inside (fun _ => solid) tells
    refine (visits_exchanged ex un spacing whole whole' before split inside
      (fun _ => by rwa [List.append_nil]) active told).step ?_
    intro s' draft' twinned
    exact step_exchanged ex un spacing whole before twinned step split place' inside
      (fun _ => Or.inl rfl) (fun _ => ⟨solid, Option.some_ne_none r⟩) active tells
  | @delimiter s _ c rest n before ahead gap =>
    have regular := visits_regular spacing.steadfast rfl (by decide) before
    have step : Step s none (s.skip n).restored none := .delimiter ahead gap
    obtain ⟨k, split, head⟩ := cut_of_delimiter ahead gap place'
    have inside := List.ne_nil_of_mem (List.mem_append_left [] (List.mem_of_mem_head? head))
    have solid : s.Solid none := solid_of_delimiter (by rw [ahead]; rfl) gap
    exact idle_exchanged ex un spacing whole whole' before step ahead gap nofun split place' inside
      (Or.inl regular.own)
      (tells_step ex spacing whole before step split place' inside (fun _ => solid) tells)
  | @line s _ rest before ahead =>
    have gap : s.gap? none '\n' = some .blank := rfl
    have split : s.cursor.ahead = ['\n'] ++ [] ++ (x ++ q) := by
      have left : rest = x ++ q := (skip_one_ahead ahead).symm.trans place
      rw [ahead, left]
      rfl
    exact idle_exchanged ex un spacing whole whole' before (.gap ahead gap rfl) ahead gap nofun
      split place' (List.cons_ne_nil _ _) (Or.inl rfl)
      (fun _ same _ => .plain same rfl rfl same.indifferent)
  | @found s _ draft _ statement visited pass =>
    have regular := visits_regular spacing.steadfast rfl (by decide) visited
    obtain ⟨c, cs, n, k, here, gap, rfl, split, head⟩ := cut_of_found pass place' more
    have mem := List.mem_append_left [] (List.mem_of_mem_head? head)
    have inside := List.ne_nil_of_mem mem
    have active : s.context.delimiter = (s.skip n).restored.context.delimiter ∨ '\n' ∈ k ++ [] :=
      Or.inl regular.own
    refine (visits_exchanged ex un spacing whole whole' visited split inside
      (fun _ => ⟨c, mem, (delimiter_of_gap? gap).1⟩) active
      (tells_found ex whole visited pass here gap split place' inside tells)).find ?_
    intro s' draft' twinned
    exact found_exchanged ex spacing whole visited twinned pass split place' inside active

end

/-- Both runs pass their gaps, and stand before the same text then. -/
theorem abreast_of_twinned (ex : z.Exchanges f p x y q) (inline : z.Inline)
    (twinned : Twinned p (x ++ q) (y ++ q) z f s' draft') (place : z.cursor.ahead = x ++ q) :
    Passes z f (z.skip x.length) f ∧ Passes s' draft' (s'.skip y.length) draft' ∧
      Abreast p x y q (z.skip x.length) f (s'.skip y.length) draft' := by
  have place' : s'.cursor.ahead = y ++ q := twinned.ahead (k := []) place
  have passes := ex.spaced.passes inline (.refl z f) place
  have passes' := ex.spaced'.passes inline twinned.twins place'
  refine ⟨passes, passes', passes_inline passes inline, twinned.twins.skip _ _, ?_, ?_⟩
  · obtain ⟨p₀, p₁, split, here, here'⟩ := twinned.facing.places
    obtain rfl : p₁ = [] := by
      rw [here] at place
      exact List.append_left_eq_self.mp place
    rw [List.append_nil] at split
    subst split
    rw [skip_cursor, skip_cursor, here, here', List.nil_append, List.nil_append, Cursor.skip_text,
      Cursor.skip_text]
    refine .intro ⟨[], q, rfl, ?_, ?_⟩
    · rw [List.append_nil]
    · rw [List.append_nil]
  · cases twinned.together with
    | none => exact .none
    | some starts => exact .some (Or.inl starts)

/-- If no word before the gap looks ahead, the gap is not seen. -/
theorem unnoticed_of_plain (whole : script.toList = p ++ (x ++ q))
    (grammar : dialect.blocks ≠ .mysql)
    (plain : ∀ w ∈ p.tails, upper w ≠ "BEGIN".toList ∧ upper w ≠ "DELIMITER".toList) :
    Unnoticed dialect script z f p x y q := by
  have before : ∀ {s draft found u r}, Visits dialect .semicolon script s draft found →
      s.Scans draft u r → u.afterWord.cursor.ahead = x ++ q → u.word ∈ p.tails := by
    intro s draft found u r visits scans left
    have ahead : s.cursor.ahead = u.word ++ (x ++ q) := by
      rw [← left, ← begin_cursor scans.begun]
      exact u.ahead_eq_word_append
    obtain ⟨p₀, split, -⟩ := visits_before visits whole ahead
    exact (List.mem_tails _ _).mpr ⟨p₀, split.symm⟩
  refine ⟨?_, ?_, ?_⟩
  · intro s draft found u r visits scans text left
    refine absurd ?_ (plain u.word (before visits scans left)).1
    rw [← text, wordText, String.toList_ofList]
  · intro s draft found u r visits scans may left
    refine absurd ?_ (plain u.word (before visits scans left)).2
    rw [← (mayDirect_iff.mp may).2.1, wordText, String.toList_ofList]
  · intro s draft found u r w visits scans blocks
    rw [begin_dialect scans.begun, visits_dialect visits] at blocks
    exact absurd blocks grammar

end Session

/-- A comment may stand in the place of blanks, and blanks in the place of a comment. The script is
split into the same statements, but for the gap. -/
theorem splitFrom_respaced {v : Vendor} (vendor : v = .generic ∨ v = .mysql ∨ v = .postgres)
    {script script' : String} {p x y q : List Char} {z : Session} {f : Option Draft}
    {found statements : List Statement} (whole : script.toList = p ++ (x ++ q))
    (whole' : script'.toList = p ++ (y ++ q))
    (arrives : Session.Arrives v.dialect .semicolon script z f found)
    (place : z.cursor.ahead = x ++ q) (exchanges : z.Exchanges f p x y q)
    (unnoticed : Session.Unnoticed v.dialect script z f p x y q)
    (split : splitFrom v.dialect .semicolon script = .ok statements) :
    ∃ statements', splitFrom v.dialect .semicolon script' = .ok statements' ∧
      List.Forall₂ (Respaced p x y) statements statements' := by
  have spacing := Vendor.spacing vendor
  have visits := Session.visits_of_arrives arrives
  have regular := Session.visits_regular spacing.steadfast rfl (by decide) visits
  obtain ⟨z', f', visits', twinned, stops⟩ :=
    Session.arrives_exchanged exchanges unnoticed spacing whole whole' arrives place
  obtain ⟨passes, passes', abreast⟩ :=
    Session.abreast_of_twinned exchanges regular.inline twinned place
  have grammar := regular.inline.dialect.grammar
  have grammar' : z'.dialect.blocks ≠ .oracle := by
    rw [twinned.twins.alike.dialect]
    exact grammar
  have onward := Session.onward_of_passes (Session.classified_of_grammar grammar) passes
  have onward' := Session.onward_of_passes (Session.classified_of_grammar grammar') passes'
  rw [Session.splitFrom_of_regular spacing.steadfast rfl (by decide) visits, onward] at split
  rw [Session.splitFrom_of_regular spacing.steadfast rfl (by decide) visits', onward']
  cases rest : (z.skip x.length).onward f with
  | error fault =>
    rw [rest] at split
    cases split
  | ok later =>
    rw [rest] at split
    obtain rfl : found ++ later = statements := Except.ok.inj split
    have live : (z.skip x.length).exhausted = false := regular.live
    obtain ⟨later', rest', respaced⟩ := Session.onward_abreast live abreast rest
    refine ⟨found ++ later', by rw [rest']; rfl, List.rel_append ?_ respaced⟩
    exact List.forall₂_same.mpr fun a mem => .apart rfl (Or.inl (stops a mem)) rfl

/-- A delimiter in the comment. -/
theorem splitFrom_respaced_semicolon :
    splitFrom .generic .semicolon "SELECT /* ; */ 1;\nSELECT 2" =
        .ok [⟨1, 0, 16, "SELECT /* ; */ 1", .semicolon⟩, ⟨2, 18, 26, "SELECT 2", .semicolon⟩] ∧
      ∃ statements, splitFrom .generic .semicolon "SELECT   1;\nSELECT 2" = .ok statements ∧
        List.Forall₂ (Respaced "SELECT".toList " /* ; */ ".toList "   ".toList)
          [⟨1, 0, 16, "SELECT /* ; */ 1", .semicolon⟩, ⟨2, 18, 26, "SELECT 2", .semicolon⟩]
          statements := by
  let script := "SELECT /* ; */ 1;\nSELECT 2"
  let s := Session.ofScript .generic .semicolon script
  let z := (Session.follow 1 s none []).1
  let d := (Draft.begin s.cursor).afterWord "SELECT"
  have word : s.pass none = .more z (some d) := by decide +kernel
  have split : splitFrom .generic .semicolon script =
      .ok [⟨1, 0, 16, "SELECT /* ; */ 1", .semicolon⟩, ⟨2, 18, 26, "SELECT 2", .semicolon⟩] := by
    decide +kernel
  have solid : s.Solid none :=
    Session.solid_of_gap?_none (c := 'S') (by decide +kernel) (by decide +kernel)
  have comment : z.Spaced (some d) "1;\nSELECT 2".toList " /* ; */ ".toList :=
    .blank (by decide) (@Session.Spaced.comment z (some d) _ '/' "* ; */".toList " ".toList
      (by decide +kernel) (.blank (by decide) .nil))
  have blanks : z.Spaced (some d) "1;\nSELECT 2".toList "   ".toList :=
    .blank (by decide) (.blank (by decide) (.blank (by decide) .nil))
  have exchanges : z.Exchanges (some d) "SELECT".toList " /* ; */ ".toList "   ".toList
      "1;\nSELECT 2".toList :=
    ⟨by decide, by decide, comment, blanks, by decide,
      Delimiter.apart_of_single (by decide +kernel), Delimiter.apart_of_single (by decide +kernel)⟩
  refine ⟨split, ?_⟩
  exact splitFrom_respaced (Or.inl rfl) (by decide) (by decide)
    (.token .start solid (Session.step_of_pass word)) (by decide +kernel) exchanges
    (Session.unnoticed_of_plain (by decide) (by decide) (by decide)) split

/-- A comment between `BEGIN` and `TRANSACTION` is taken for the next token. -/
theorem splitFrom_begin_comment :
    splitFrom .generic .semicolon "BEGIN  TRANSACTION;\nSELECT 1;\n" =
        .ok [⟨1, 0, 18, "BEGIN  TRANSACTION", .semicolon⟩, ⟨2, 20, 28, "SELECT 1", .semicolon⟩] ∧
      splitFrom .generic .semicolon "BEGIN /* c */ TRANSACTION;\nSELECT 1;\n" =
        .error (.unclosedBlock "BEGIN" 1) := by
  decide +kernel

end SqlBoundary
