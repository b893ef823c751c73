import SqlBoundary.Proofs.Excerpt
import SqlBoundary.Proofs.Plain

/-!
# Cutting at an inline delimiter

A plain script is split as if it had no tokens at all: from left to right, counting parentheses,
it is cut wherever the delimiter stands outside of them. The delimiter may be of any length, cut a
number in two or overlap itself.

The count is that of the program, in 32 bits. As long as it does not go beyond them, it is the count
without a bound.
-/

namespace SqlBoundary

open Text

/-- A way to count parentheses, from none open. -/
structure Tally (κ : Type) where
  zero : κ
  after : κ → Char → κ
  outside : κ → Bool
  outside_zero : outside zero = true

/-- The depth of parentheses after a character. -/
def depthAfter (depth : Nat) (c : Char) : Nat :=
  if c = '(' then depth + 1 else if c = ')' then depth - 1 else depth

namespace Tally

def unbounded : Tally Nat where
  zero := 0
  after := depthAfter
  outside depth := depth == 0
  outside_zero := rfl

def wrapping : Tally Int32 where
  zero := 0
  after := parensAfter
  outside level := level ≤ 0
  outside_zero := by decide

variable {κ : Type}

/-- Cuts at the leftmost occurrences of a mark outside parentheses. `held` is the piece so far, and
the first `skip` characters ahead belong to the last occurrence. -/
def cut (tally : Tally κ) (mark : List Char) :
    (skip : Nat) → (depth : κ) → (held : List Char) → List Char → List (List Char)
  | _, _, held, [] => [held]
  | skip + 1, depth, held, _ :: rest => tally.cut mark skip depth held rest
  | 0, depth, held, c :: rest =>
    if tally.outside depth ∧ mark <+: c :: rest then
      held :: tally.cut mark (mark.length - 1) depth [] rest
    else tally.cut mark 0 (tally.after depth c) (held ++ [c]) rest

/-- The pieces of a text between the leftmost occurrences of a mark outside parentheses. -/
def pieces (tally : Tally κ) (mark text : List Char) : List (List Char) :=
  tally.cut mark 0 tally.zero [] text

variable {tally : Tally κ} {depth : κ} {mark held piece cs rest : List Char} {c : Char}

theorem cut_skip (n : Nat) (depth : κ) (cs : List Char) :
    tally.cut mark n depth [] cs = tally.cut mark 0 depth [] (cs.drop n) := by
  induction n generalizing cs with
  | zero => rw [List.drop_zero]
  | succ n ih =>
    cases cs with
    | nil => rfl
    | cons c rest => exact ih rest

theorem cut_here (nonempty : mark ≠ []) (outside : tally.outside depth = true)
    (begins : mark <+: cs) :
    tally.cut mark 0 depth held cs =
      held :: tally.cut mark 0 depth [] (cs.drop mark.length) := by
  obtain ⟨x, more, rfl⟩ := List.exists_cons_of_ne_nil nonempty
  obtain ⟨after, rfl⟩ := begins
  rw [List.cons_append] at *
  rw [cut, if_pos ⟨outside, List.prefix_append (x :: more) after⟩, cut_skip]
  rfl

theorem cut_keep (kept : tally.outside depth = true → ¬ mark <+: c :: rest) :
    tally.cut mark 0 depth held (c :: rest) =
      tally.cut mark 0 (tally.after depth c) (held ++ [c]) rest := by
  rw [cut, if_neg fun here => kept here.1 here.2]

/-- A word is passed as a whole where the mark stands nowhere in it. -/
theorem cut_word (level : ∀ c ∈ piece, tally.after depth c = depth)
    (uncut : ∀ k < piece.length, ¬ mark <+: (piece ++ cs).drop k) :
    tally.cut mark 0 depth held (piece ++ cs) = tally.cut mark 0 depth (held ++ piece) cs := by
  induction piece generalizing held with
  | nil => rw [List.nil_append, List.append_nil]
  | cons c piece ih =>
    have here : ¬ mark <+: c :: (piece ++ cs) := uncut 0 (Nat.zero_lt_succ _)
    have later : tally.cut mark 0 depth (held ++ [c]) (piece ++ cs) =
        tally.cut mark 0 depth (held ++ [c] ++ piece) cs :=
      ih (fun x mem => level x (List.mem_cons_of_mem c mem))
        (fun k within => uncut (k + 1) (Nat.succ_lt_succ within))
    rw [List.cons_append, cut_keep (fun _ => here), level c List.mem_cons_self, later,
      List.append_assoc]
    rfl

/-- The mark stands nowhere in this text outside parentheses, also not where a mark is put behind it,
and all parentheses are closed in the end. -/
def Uncut (tally : Tally κ) (mark : List Char) : (depth : κ) → List Char → Prop
  | depth, [] => depth = tally.zero
  | depth, c :: rest =>
    (tally.outside depth = true → ¬ mark <+: c :: (rest ++ mark)) ∧
      tally.Uncut mark (tally.after depth c) rest

theorem cut_uncut (nonempty : mark ≠ []) (uncut : tally.Uncut mark depth piece) :
    tally.cut mark 0 depth held (piece ++ (mark ++ cs)) =
      (held ++ piece) :: tally.pieces mark cs := by
  induction piece generalizing depth held with
  | nil =>
    cases uncut
    rw [List.nil_append, List.append_nil,
      cut_here nonempty tally.outside_zero (List.prefix_append mark cs), List.drop_left, pieces]
  | cons c rest ih =>
    obtain ⟨here, later⟩ := uncut
    have kept : tally.outside depth = true → ¬ mark <+: c :: (rest ++ (mark ++ cs)) := by
      intro outside begins
      have front : c :: (rest ++ mark) <+: c :: (rest ++ (mark ++ cs)) := by
        rw [← List.append_assoc]
        exact List.prefix_append (c :: (rest ++ mark)) cs
      refine here outside (List.prefix_of_prefix_length_le begins front ?_)
      rw [List.length_cons, List.length_append]
      omega
    rw [List.cons_append, cut_keep kept, ih later, List.append_assoc]
    rfl

/-- Texts with a mark behind each are cut into these texts, and nothing is left. -/
theorem pieces_flatMap {texts : List (List Char)} (nonempty : mark ≠ [])
    (uncut : ∀ text ∈ texts, tally.Uncut mark tally.zero text) :
    tally.pieces mark (texts.flatMap (· ++ mark)) = texts ++ [[]] := by
  induction texts with
  | nil => rfl
  | cons text texts ih =>
    rw [List.flatMap_cons, List.append_assoc, pieces,
      cut_uncut nonempty (uncut text List.mem_cons_self), List.nil_append,
      ih fun other mem => uncut other (List.mem_cons_of_mem text mem)]
    rfl

variable {level : Int32}

theorem outside_wrapping : wrapping.outside level = unbounded.outside level.toNatClampNeg := by
  rw [Bool.eq_iff_iff]
  simp [wrapping, unbounded]

theorem depthAfter_eq (floor : 0 ≤ level) (room : (level : Int) + [c].count '(' < 2 ^ 31) :
    (parensAfter level c).toNatClampNeg = depthAfter level.toNatClampNeg c := by
  have least := depth_nonneg.mp floor
  change (parensAfter level c : Int).toNat = depthAfter (level : Int).toNat c
  rw [parensAfter_eq floor room, depthAfter]
  split
  · omega
  · split <;> omega

/-- The two counts agree as long as all parentheses can be counted. -/
theorem cut_wrapping (skip : Nat) (floor : 0 ≤ level)
    (room : (level : Int) + cs.count '(' < 2 ^ 31) :
    wrapping.cut mark skip level held cs =
      unbounded.cut mark skip level.toNatClampNeg held cs := by
  induction cs generalizing skip level held with
  | nil => cases skip <;> rfl
  | cons c rest ih =>
    rw [count_paren_cons] at room
    cases skip with
    | succ skip => exact ih skip floor (by omega)
    | zero =>
      obtain ⟨least, most⟩ := parensAfter_le (c := c) floor (by omega)
      have kept : wrapping.cut mark 0 (parensAfter level c) (held ++ [c]) rest =
          unbounded.cut mark 0 (depthAfter level.toNatClampNeg c) (held ++ [c]) rest := by
        rw [ih 0 least (by omega), depthAfter_eq floor (by omega)]
      rw [cut, cut, outside_wrapping, ih (mark.length - 1) floor (by omega)]
      exact congrArg _ kept

theorem pieces_wrapping (fit : ParensFit cs) :
    wrapping.pieces mark cs = unbounded.pieces mark cs := by
  refine cut_wrapping 0 (Int32.le_refl 0) ?_
  rw [ParensFit] at fit
  change (0 : Int) + cs.count '(' < 2 ^ 31
  omega

end Tally

theorem parensAfter_isWordChar {dialect : Dialect} {c : Char} (h : dialect.isWordChar c = true)
    (level : Int32) : parensAfter level c = level := by
  refine parensAfter_other ?_ ?_
  · rintro rfl
    revert h
    rw [Dialect.isWordChar, Dialect.startsWord]
    cases dialect.kind <;> decide
  · rintro rfl
    revert h
    rw [Dialect.isWordChar, Dialect.startsWord]
    cases dialect.kind <;> decide

theorem parensAfter_blank {c : Char} (blank : isBlank c = true) (level : Int32) :
    parensAfter level c = level := by
  refine parensAfter_other ?_ ?_
  · rintro rfl
    cases blank
  · rintro rfl
    cases blank

/-- An inline delimiter that begins neither with a blank nor like a word. -/
structure Delimiter.Cuts (d : Delimiter) (dialect : Dialect) : Prop where
  inline : d.aloneOnLine = false
  nonempty : d.text.toList ≠ []
  solid : ∀ c ∈ d.text.toList.head?, isBlank c = false
  wordless : d.Wordless dialect

namespace Delimiter.Cuts

variable {d : Delimiter} {dialect : Dialect} {c : Char} {cs : List Char}

theorem startsAt_iff (cuts : d.Cuts dialect) : d.startsAt cs = true ↔ d.text.toList <+: cs := by
  simp [startsAt, cuts.inline, cuts.nonempty]

theorem head (cuts : d.Cuts dialect) (begins : d.text.toList <+: c :: cs) :
    isBlank c = false ∧ dialect.startsWord c = false := by
  have first := head?_of_startsAt (cuts.startsAt_iff.mpr begins)
  exact ⟨cuts.solid c first, cuts.wordless c first⟩

theorem spared (cuts : d.Cuts dialect) (starts : dialect.startsWord c = true) :
    d.startsAt (c :: cs) = false := by
  rw [Bool.eq_false_iff]
  intro begins
  rw [(cuts.head (cuts.startsAt_iff.mp begins)).2] at starts
  cases starts

end Delimiter.Cuts

namespace Session

variable {s : Session} {draft : Option Draft} {dialect : Dialect} {d : Delimiter}
variable {b : List Char}

theorem delimiterLength?_of_cuts (cuts : d.Cuts dialect) (calm : Calm dialect d s draft) :
    s.delimiterLength? = if s.context.parens ≤ 0 ∧ d.text.toList <+: s.cursor.ahead
      then some d.text.toList.length else none := by
  have inline : s.context.delimiter.aloneOnLine = false := by rw [calm.delimiter, cuts.inline]
  by_cases here : s.context.parens ≤ 0 ∧ d.text.toList <+: s.cursor.ahead
  · have starts := cuts.startsAt_iff.mpr here.2
    rw [if_pos here, delimiterLength?, calm.delimiter]
    simp [Context.blockDepth, calm.outside, cuts.inline, here.1, starts]
  · rw [if_neg here, delimiterLength?_eq_none_iff inline, calm.delimiter]
    rcases not_and_or.mp here with open_ | absent
    · exact Or.inr (Or.inl (Int32.not_le.mp open_))
    · refine Or.inr (Or.inr (Bool.eq_false_iff.mpr ?_))
      exact fun starts => absent (cuts.startsAt_iff.mp starts)

/-- A token is passed as a whole where it does not begin with the delimiter. -/
theorem cut_token {piece after : List Char} {parens : Int32} (cuts : d.Cuts dialect)
    (takes : Takes dialect d s piece parens) (split : s.cursor.ahead = piece ++ after)
    (kept : s.context.parens ≤ 0 → ¬ d.text.toList <+: s.cursor.ahead) :
    Tally.wrapping.cut d.text.toList 0 s.context.parens b s.cursor.ahead =
      Tally.wrapping.cut d.text.toList 0 parens (b ++ piece) after := by
  rw [split] at kept ⊢
  cases takes with
  | word _ letters uncut =>
    refine Tally.cut_word (fun c mem => parensAfter_isWordChar (letters c mem) _) ?_
    intro k within begins
    have cut := uncut k within
    rw [split, cuts.startsAt_iff.mpr begins] at cut
    cases cut
  | symbol => exact Tally.cut_keep fun outside => kept (of_decide_eq_true outside)

/-- Reading cuts a plain text as the pieces are cut, wherever it begins. -/
theorem yields_cut (steadfast : dialect.Steadfast) (cuts : d.Cuts dialect)
    (calm : Calm dialect d s draft) (pending : Pending s draft b) :
    s.Yields draft
      (Tally.wrapping.cut d.text.toList 0 s.context.parens b s.cursor.ahead) := by
  generalize size : s.cursor.ahead.length = n
  induction n using Nat.strong_induction_on generalizing s draft b with
  | _ n ih =>
    have classified := calm.classified steadfast
    have active := delimiterLength?_of_cuts cuts calm
    cases ahead : s.cursor.ahead with
    | nil => exact yields_of_end calm.outside calm.live pending ahead
    | cons c rest =>
      rw [ahead] at active size
      by_cases here : s.context.parens ≤ 0 ∧ d.text.toList <+: c :: rest
      · rw [if_pos here] at active
        have left : (s.skip d.text.toList.length).restored.cursor.ahead =
            (c :: rest).drop d.text.toList.length := by
          rw [← ahead]
          exact Cursor.skip_ahead _ _
        have shorter : (s.skip d.text.toList.length).restored.cursor.ahead.length < n := by
          have longer := List.length_pos_iff.mpr cuts.nonempty
          rw [left, List.length_drop, ← size, List.length_cons]
          omega
        have later := ih _ shorter (calm.skip d.text.toList.length calm.kind).restored
          (pending.behind d.text.toList.length) rfl
        rw [Tally.cut_here cuts.nonempty (decide_eq_true here.1) here.2, ← left]
        exact yields_of_delimiter classified calm.live pending ahead (cuts.head here.2).1 active
          later
      · rw [if_neg here] at active
        have kept : s.context.parens ≤ 0 → ¬ d.text.toList <+: c :: rest :=
          fun outside begins => here ⟨outside, begins⟩
        cases blank : isBlank c with
        | true =>
          have left := skip_one_ahead ahead
          have level : Tally.wrapping.after s.context.parens c = s.context.parens :=
            parensAfter_blank blank _
          rw [Tally.cut_keep fun outside => kept (of_decide_eq_true outside), level, ← left]
          have shorter : (s.skip 1).cursor.ahead.length < n := by
            rw [left, ← size]
            exact Nat.lt_succ_self _
          exact yields_of_blank classified ahead blank
            (ih _ shorter (calm.skip 1 calm.kind) (pending.blank_step ahead blank) rfl)
        | false =>
          obtain ⟨t, y, piece, pass, takes, split, moved, start, calm'⟩ :=
            calm.token steadfast ahead blank active cuts.spared
          obtain ⟨x, more, rfl, -⟩ := takes.first
          have shorter : t.cursor.ahead.length < n := by
            rw [← size, ← ahead, split, List.length_append]
            simp
          rw [← ahead] at kept
          rw [← ahead, cut_token cuts takes split kept]
          exact yields_of_more classified pass
            (ih _ shorter calm' (pending.token_step split moved start takes.first) rfl)

end Session

/-- A quiet script is cut into its pieces. -/
theorem splitFrom_pieces {v : Vendor} {d : Delimiter} {script : String} (vendor : v ≠ .oracle)
    (cuts : d.Cuts v.dialect) (quiet : Quiet v.dialect script.toList) :
    ∃ statements, splitFrom v.dialect d script = .ok statements ∧
      statements.map (·.sql) =
        sqlTexts (Tally.wrapping.pieces d.text.toList script.toList) := by
  refine Session.splitFrom_of_yields quiet ?_
  intro s calm pending closed start
  have yields := Session.yields_cut (Vendor.steadfast vendor) cuts calm pending
  rw [closed, start] at yields
  exact yields

end SqlBoundary
