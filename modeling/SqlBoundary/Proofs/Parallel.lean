import Mathlib.Data.List.Forall2
import Mathlib.Data.List.Induction
import SqlBoundary.Proofs.Alike
import SqlBoundary.Proofs.Frame
import SqlBoundary.Proofs.Segment

/-!
# Two scripts that differ in one place

Between `p` and `q` one script has the text `x`, the other `y`. Places outside that text
correspond. Once both texts have been passed by alike sessions, the rest is read in parallel:
statements agree but for the text replaced, and faults but for the lines they tell of.
-/

namespace SqlBoundary

open Text

/-- Both are results of this kind, or both are one fault at possibly different lines. -/
inductive Agree {α : Type} (related : α → α → Prop) : Except Fault α → Except Fault α → Prop
  | ok {a b : α} (same : related a b) : Agree related (.ok a) (.ok b)
  | error {fault fault' : Fault} (same : fault'.placeless = fault.placeless) :
      Agree related (.error fault) (.error fault')

/-- The statement `b` is `a` with `y` in place of the text `x` after `p`, if that text belongs
to it. -/
inductive Replaced (p x y : List Char) (a b : Statement) : Prop
  | within (before after : List Char) (delimiter : b.delimiter = a.delimiter)
      (place : a.start + byteSize before = byteSize p)
      (place' : b.start + byteSize before = byteSize p)
      (sql : a.sql = String.ofList (before ++ x ++ after))
      (sql' : b.sql = String.ofList (before ++ y ++ after))
  | apart (delimiter : b.delimiter = a.delimiter)
      (place : a.stop ≤ byteSize p ∨ byteSize (p ++ x) ≤ a.start) (sql : b.sql = a.sql)

/-- The last character is not blank. -/
def EndsSolid (cs : List Char) : Prop := ∃ init c, cs = init ++ [c] ∧ isBlank c = false

theorem EndsSolid.append {cs : List Char} (h : EndsSolid cs) (before : List Char) :
    EndsSolid (before ++ cs) := by
  obtain ⟨init, c, rfl, solid⟩ := h
  exact ⟨before ++ init, c, (List.append_assoc before init [c]).symm, solid⟩

theorem trimEnd_append_of_solid {cs : List Char} (h : EndsSolid cs) (after : List Char) :
    trimEnd (cs ++ after) = cs ++ trimEnd after := by
  obtain ⟨init, c, rfl, solid⟩ := h
  simp only [trimEnd, List.reverse_append, List.reverse_singleton]
  rw [List.dropWhile_append]
  split
  · next blank =>
    have empty : after.reverse.dropWhile isBlank = [] := List.isEmpty_iff.mp blank
    simp [empty, solid]
  · simp

theorem trimEnd_of_solid {cs : List Char} (h : EndsSolid cs) : trimEnd cs = cs := by
  have trimmed := trimEnd_append_of_solid h []
  have nothing : trimEnd [] = [] := rfl
  rwa [nothing, List.append_nil] at trimmed

theorem byteSize_trimEnd_le (cs : List Char) : byteSize (trimEnd cs) ≤ byteSize cs := by
  obtain ⟨blanks, split, -⟩ := trimEnd_append_blanks cs
  conv => rhs; rw [split]
  rw [byteSize_append]
  omega

theorem byteSize_take_le (n : Nat) (cs : List Char) : byteSize (cs.take n) ≤ byteSize cs := by
  conv => rhs; rw [← List.take_append_drop n cs]
  rw [byteSize_append]
  omega

theorem content_snoc (passed ahead : List Char) (c : Char) :
    (Cursor.between (passed ++ [c]) ahead).content =
      if c == '\n' then false
      else (Cursor.between passed (c :: ahead)).content || !isBlank c := by
  rw [← Cursor.advance_between]
  rfl

/-- What the line holds is told from a last character that is not blank and what comes after. -/
theorem content_of_solid {a b : List Char} (ha : EndsSolid a) (hb : EndsSolid b)
    (after ahead : List Char) :
    (Cursor.between (a ++ after) ahead).content = (Cursor.between (b ++ after) ahead).content := by
  have solid : ∀ {cs ahead : List Char}, EndsSolid cs →
      (Cursor.between cs ahead).content = true := by
    rintro cs ahead ⟨init, c, rfl, solid⟩
    rw [content_snoc]
    simp [ne_lineFeed_of_solid solid, solid]
  induction after using List.reverseRecOn generalizing ahead with
  | nil => rw [List.append_nil, List.append_nil, solid ha, solid hb]
  | append_singleton after c ih =>
    rw [← List.append_assoc, ← List.append_assoc, content_snoc, content_snoc, ih]

/-- Places within `p`, before which the same has been passed; after `p` the scripts go on with `a`
and with `b`. -/
structure Facing (p a b : List Char) (cur cur' : Cursor) : Prop where
  intro ::
  places : ∃ p₀ p₁, p = p₀ ++ p₁ ∧ cur = .between p₀ (p₁ ++ a) ∧ cur' = .between p₀ (p₁ ++ b)

/-- Places after the text in which the scripts differ. -/
structure Past (p x y q : List Char) (cur cur' : Cursor) : Prop where
  intro ::
  places : ∃ q₀ q₁, q = q₀ ++ q₁ ∧ cur = .between (p ++ x ++ q₀) q₁ ∧
    cur' = .between (p ++ y ++ q₀) q₁

/-- Places before that text or after it. -/
def Corresponds (p x y q : List Char) (cur cur' : Cursor) : Prop :=
  Facing p (x ++ q) (y ++ q) cur cur' ∨ Past p x y q cur cur'

section

variable {p x y q : List Char} {cur cur' : Cursor}

theorem Facing.skip {a b : List Char} {n : Nat} (h : Facing p a b cur cur')
    (fits : n + a.length ≤ cur.ahead.length) : Facing p a b (cur.skip n) (cur'.skip n) := by
  obtain ⟨p₀, p₁, rfl, rfl, rfl⟩ := h.places
  have short : n ≤ p₁.length := by
    simp only [Cursor.between, List.length_append] at fits
    omega
  refine .intro ⟨p₀ ++ p₁.take n, p₁.drop n, ?_, ?_, ?_⟩
  · rw [List.append_assoc, List.take_append_drop]
  · rw [Cursor.skip_between, List.take_append_of_le_length short,
      List.drop_append_of_le_length short]
  · rw [Cursor.skip_between, List.take_append_of_le_length short,
      List.drop_append_of_le_length short]

theorem Past.ahead (h : Past p x y q cur cur') : cur'.ahead = cur.ahead := by
  obtain ⟨q₀, q₁, -, rfl, rfl⟩ := h.places
  rfl

theorem Past.content (h : Past p x y q cur cur') (hx : EndsSolid x) (hy : EndsSolid y) :
    cur'.content = cur.content := by
  obtain ⟨q₀, q₁, -, rfl, rfl⟩ := h.places
  exact content_of_solid (hy.append p) (hx.append p) q₀ q₁

theorem Past.skip (h : Past p x y q cur cur') (n : Nat) :
    Past p x y q (cur.skip n) (cur'.skip n) := by
  obtain ⟨q₀, q₁, rfl, rfl, rfl⟩ := h.places
  refine .intro ⟨q₀ ++ q₁.take n, q₁.drop n, ?_, ?_, ?_⟩
  · rw [List.append_assoc, List.take_append_drop]
  · rw [Cursor.skip_between, List.append_assoc _ q₀]
  · rw [Cursor.skip_between, List.append_assoc _ q₀]

/-- What lies before a place past the text in which the scripts differ: from a place before that
text on, the text whole, and from a place past it on, the same in both scripts. -/
theorem Past.upTo {start start' : Cursor} (h : Past p x y q cur cur')
    (starts : Corresponds p x y q start start') :
    (∃ before after, start.offset + byteSize before = byteSize p ∧
        start'.offset + byteSize before = byteSize p ∧
        start.upTo cur = before ++ x ++ after ∧ start'.upTo cur' = before ++ y ++ after) ∨
      byteSize (p ++ x) ≤ start.offset ∧ start'.upTo cur' = start.upTo cur := by
  obtain ⟨q₀, q₁, rfl, rfl, rfl⟩ := h.places
  rcases starts with facing | past
  · obtain ⟨r₀, r₁, rfl, rfl, rfl⟩ := facing.places
    have text : ∀ z, (Cursor.between r₀ (r₁ ++ (z ++ (q₀ ++ q₁)))).upTo
        (.between (r₀ ++ r₁ ++ z ++ q₀) q₁) = r₁ ++ z ++ q₀ := by
      intro z
      have whole := Cursor.upTo_between r₀ (r₁ ++ z ++ q₀) q₁
      simpa only [List.append_assoc] using whole
    exact Or.inl ⟨r₁, q₀, (byteSize_append r₀ r₁).symm, (byteSize_append r₀ r₁).symm, text x, text y⟩
  · obtain ⟨r₀, r₁, split, rfl, rfl⟩ := past.places
    have text : ∀ z, (Cursor.between (p ++ z ++ r₀) r₁).upTo (.between (p ++ z ++ q₀) q₁) =
        r₁.take (q₀.length - r₀.length) := by
      intro z
      simp only [Cursor.upTo, Cursor.between, List.length_append]
      rw [Nat.add_sub_add_left]
    refine Or.inr ⟨?_, (text y).trans (text x).symm⟩
    change _ ≤ byteSize (p ++ x ++ r₀)
    rw [byteSize_append (p ++ x)]
    exact Nat.le_add_right _ _

end

namespace Session

variable {s t u s' t' u' : Session} {draft draft' e e' : Option Draft} {d d' : Draft}
variable {p x y q : List Char}

theorem Alike.refl (s : Session) (draft : Option Draft) : Alike s draft s draft where
  dialect := rfl
  delimiter := rfl
  script := rfl
  parens := rfl
  blocks := rfl
  exhausted := rfl
  kind := fun _ => rfl
  drafts := by
    cases draft with
    | none => exact .none
    | some d => exact .some ⟨rfl, rfl⟩

/-- A pass takes the characters that it has seen. -/
theorem more_moves (std : s.dialect.Standard) (h : s.pass draft = .more t e) :
    t.cursor = s.cursor.skip (s.sight draft).length := by
  have matched := matched_pass std (Alike.refl s draft) rfl
  rw [h] at matched
  cases matched with
  | more _ cursor _ => exact cursor

theorem found_moves {statement : Statement} (std : s.dialect.Standard)
    (h : s.pass draft = .found t statement) :
    t.cursor = s.cursor.skip (s.sight draft).length := by
  have matched := matched_pass std (Alike.refl s draft) rfl
  rw [h] at matched
  cases matched with
  | found _ cursor _ _ => exact cursor

/-- Drafts that were begun at related places. -/
def Together (related : Cursor → Cursor → Prop) : Option Draft → Option Draft → Prop :=
  Option.Rel fun d d' => related d.start d'.start

/-- A step begins a draft where it stands, or goes on with one. -/
theorem step_together {related : Cursor → Cursor → Prop} (h : Together related draft draft')
    (cursors : related s.cursor s'.cursor) (step : Step s draft t e) (step' : Step s' draft' t' e')
    (alike : Alike t e t' e') : Together related e e' := by
  have begun : related ((draft.map (·.start)).getD s.cursor)
      ((draft'.map (·.start)).getD s'.cursor) := by
    cases h with
    | none => exact cursors
    | some same => exact same
  cases alike.drafts with
  | none => exact .none
  | some same =>
    refine .some ?_
    rw [step_start step, step_start step']
    exact begun

/-- Within `p` nothing of what comes after it shows. -/
theorem cut_facing {a b : List Char} (delimiter : s'.context.delimiter = s.context.delimiter)
    (starts : Facing p a b d.start d'.start) (cursors : Facing p a b s.cursor s'.cursor) :
    s'.cut d' s'.cursor = s.cut d s.cursor ∧ (s.cut d s.cursor).stop ≤ byteSize p := by
  obtain ⟨r₀, r₁, whole, start, start'⟩ := starts.places
  obtain ⟨p₀, p₁, place, cursor, cursor'⟩ := cursors.places
  have short : p₀.length - r₀.length ≤ r₁.length := by
    have lengths := congrArg List.length (whole.symm.trans place)
    simp only [List.length_append] at lengths
    omega
  have text : ∀ after, (Cursor.between r₀ (r₁ ++ after)).upTo (.between p₀ (p₁ ++ after)) =
      r₁.take (p₀.length - r₀.length) := by
    intro after
    exact List.take_append_of_le_length short
  constructor
  · simp only [cut, start, start', cursor, cursor', text, delimiter]
    rfl
  · simp only [cut, start, cursor, text, whole, byteSize_append]
    have trimmed := byteSize_trimEnd_le (r₁.take (p₀.length - r₀.length))
    have taken := byteSize_take_le (p₀.length - r₀.length) r₁
    change byteSize r₀ + _ ≤ _
    omega

/-- A statement that ends past the text in which the scripts differ holds it whole, or begins
after it. -/
theorem cut_past (hx : EndsSolid x) (hy : EndsSolid y)
    (delimiter : s'.context.delimiter = s.context.delimiter)
    (starts : Corresponds p x y q d.start d'.start) (cursors : Past p x y q s.cursor s'.cursor) :
    Replaced p x y (s.cut d s.cursor) (s'.cut d' s'.cursor) := by
  rcases cursors.upTo starts with ⟨before, after, place, place', text, text'⟩ | ⟨later, text⟩
  · refine .within before (trimEnd after) delimiter place place' ?_ ?_
    · simp only [cut, text, trimEnd_append_of_solid (hx.append before)]
    · simp only [cut, text', trimEnd_append_of_solid (hy.append before)]
  · refine .apart delimiter (Or.inr later) ?_
    simp only [cut, text]

/-- What two runs in parallel come to. -/
inductive Concurs (p x y q : List Char) :
    Session × Except Fault (Option Statement) → Session × Except Fault (Option Statement) → Prop
  | found {t t' : Session} {a b : Statement} (alike : Alike t none t' none)
      (cursors : Past p x y q t.cursor t'.cursor) (same : Replaced p x y a b) :
      Concurs p x y q (t, .ok (some a)) (t', .ok (some b))
  | finished {t t' : Session} : Concurs p x y q (t, .ok none) (t', .ok none)
  | failed {t t' : Session} {fault fault' : Fault} (same : fault'.placeless = fault.placeless) :
      Concurs p x y q (t, .error fault) (t', .error fault')

theorem pass_past (hx : EndsSolid x) (hy : EndsSolid y) (std : s.dialect.Standard)
    (alike : Alike s draft s' draft') (cursors : Past p x y q s.cursor s'.cursor)
    (together : Together (Corresponds p x y q) draft draft') :
    (∃ t e t' e', s.pass draft = .more t e ∧ s'.pass draft' = .more t' e' ∧ Alike t e t' e' ∧
        Past p x y q t.cursor t'.cursor ∧ Together (Corresponds p x y q) e e') ∨
      ∃ r r', (s.pass draft).answer? = some r ∧ (s'.pass draft').answer? = some r' ∧
        Concurs p x y q r r' := by
  have matched := matched_pass std alike (alike.sight cursors.ahead (cursors.content hx hy))
  generalize passes : s.pass draft = r, passes' : s'.pass draft' = r' at matched
  cases matched with
  | more after moved moved' =>
    refine Or.inl ⟨_, _, _, _, rfl, rfl, after, ?_, ?_⟩
    · rw [moved, moved']
      exact cursors.skip _
    · exact step_together together (Or.inr cursors) (step_of_pass passes) (step_of_pass passes')
        after
  | found after moved moved' =>
    refine Or.inr ⟨_, _, rfl, rfl, .found after ?_ ?_⟩
    · rw [moved, moved']
      exact cursors.skip _
    · obtain ⟨d, rfl, rfl, -⟩ := pass_found passes
      obtain ⟨d', rfl, rfl, -⟩ := pass_found passes'
      cases together with
      | some starts => exact cut_past hx hy alike.delimiter starts cursors
  | finished => exact Or.inr ⟨_, _, rfl, rfl, .finished⟩
  | failed same => exact Or.inr ⟨_, _, rfl, rfl, .failed same⟩

theorem run_past (hx : EndsSolid x) (hy : EndsSolid y) (std : s.dialect.Standard)
    (alike : Alike s draft s' draft') (cursors : Past p x y q s.cursor s'.cursor)
    (together : Together (Corresponds p x y q) draft draft') (bound : List Char) :
    Concurs p x y q (run bound s draft) (run bound s' draft') := by
  induction bound generalizing s draft s' draft' with
  | nil =>
    rcases pass_past hx hy std alike cursors together with
      ⟨t, e, t', e', passes, passes', -⟩ | ⟨r, r', answer, answer', concurs⟩
    · rw [run, run, passes, passes']
      exact .failed rfl
    · rw [run_of_answer answer, run_of_answer answer']
      exact concurs
  | cons z bound ih =>
    rcases pass_past hx hy std alike cursors together with
      ⟨t, e, t', e', passes, passes', after, moved, begun⟩ | ⟨r, r', answer, answer', concurs⟩
    · rw [run_of_more z passes, run_of_more z passes']
      exact ih (step_dialect (step_of_pass passes) ▸ std) after moved begun
    · rw [run_of_answer answer, run_of_answer answer']
      exact concurs

theorem read_past (hx : EndsSolid x) (hy : EndsSolid y) (std : s.dialect.Standard)
    (alike : Alike s draft s' draft') (cursors : Past p x y q s.cursor s'.cursor)
    (together : Together (Corresponds p x y q) draft draft') :
    Concurs p x y q (s.read draft) (s'.read draft') := by
  rw [read, read, cursors.ahead]
  exact run_past hx hy std alike cursors together s.cursor.ahead

theorem same_of_found {statement : Statement} (h : s.read draft = (t, .ok (some statement))) :
    t.dialect = s.dialect ∧ t.exhausted = s.exhausted := by
  obtain ⟨u, f, passes, found⟩ := passes_of_found h
  obtain ⟨dialect, exhausted⟩ := passes_same passes
  obtain ⟨n, rfl⟩ := restored_of_found found
  exact ⟨dialect, exhausted⟩

theorem agree_cons {a b : Statement} {r r' : Except Fault (List Statement)}
    (same : Replaced p x y a b) (rest : Agree (List.Forall₂ (Replaced p x y)) r r') :
    Agree (List.Forall₂ (Replaced p x y)) (r.map (a :: ·)) (r'.map (b :: ·)) := by
  cases rest with
  | ok later => exact .ok (.cons same later)
  | error fault => exact .error fault

/-- Past the text in which the scripts differ, their statements agree. -/
theorem remaining_past (hx : EndsSolid x) (hy : EndsSolid y) (std : s.dialect.Standard)
    (live : s.exhausted = false) (alike : Alike s none s' none)
    (cursors : Past p x y q s.cursor s'.cursor) :
    Agree (List.Forall₂ (Replaced p x y)) s.remaining.2 s'.remaining.2 := by
  induction left : s.cursor.ahead.length using Nat.strongRecOn generalizing s s' with
  | ind n ih =>
    have live' : s'.exhausted = false := alike.exhausted.trans live
    have concurs := read_past hx hy std alike cursors .none
    generalize next : s.read none = r, next' : s'.read none = r' at concurs
    cases concurs with
    | @found t t' a b after moved more =>
      obtain ⟨dialect, exhausted⟩ := same_of_found next
      rw [remaining_of_found live next, remaining_of_found live' next']
      apply agree_cons more
      exact ih _ (left ▸ next_shortens next) (dialect ▸ std) (exhausted.trans live) after moved rfl
    | finished =>
      rw [remaining_of_none live next, remaining_of_none live' next']
      exact .ok .nil
    | failed same =>
      rw [remaining_of_error live next, remaining_of_error live' next']
      exact .error same

/-- The statement being read and those after it. -/
def onward (s : Session) (draft : Option Draft) : Except Fault (List Statement) :=
  match s.read draft with
  | (t, .ok (some statement)) => t.remaining.2.map (statement :: ·)
  | (_, .ok none) => .ok []
  | (_, .error fault) => .error fault

theorem onward_none (live : s.exhausted = false) : s.onward none = s.remaining.2 := by
  rw [onward]
  rcases next : s.read none with ⟨t, fault | _ | statement⟩
  · rw [remaining_of_error live next]
  · rw [remaining_of_none live next]
  · rw [remaining_of_found live next]

theorem onward_past (hx : EndsSolid x) (hy : EndsSolid y) (std : s.dialect.Standard)
    (live : s.exhausted = false) (alike : Alike s draft s' draft')
    (cursors : Past p x y q s.cursor s'.cursor)
    (together : Together (Corresponds p x y q) draft draft') :
    Agree (List.Forall₂ (Replaced p x y)) (s.onward draft) (s'.onward draft') := by
  have concurs := read_past hx hy std alike cursors together
  rw [onward, onward]
  generalize read : s.read draft = r, read' : s'.read draft' = r' at concurs
  cases concurs with
  | found after moved more =>
    obtain ⟨dialect, exhausted⟩ := same_of_found read
    exact agree_cons more
      (remaining_past hx hy (dialect ▸ std) (exhausted.trans live) after moved)
  | finished => exact .ok .nil
  | failed same => exact .error same

end Session

end SqlBoundary
