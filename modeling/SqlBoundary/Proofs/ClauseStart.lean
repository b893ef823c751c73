import SqlBoundary.Proofs.EndTail
import SqlBoundary.Proofs.Reachable

/-!
# Where a clause starts

Whether a procedural statement may begin at a word is told from the token directly before it.
A colon ends a label, unless it is part of a longer sign; but this is told from the character
after the colon alone. So the second colon of a cast is taken for the end of a label, and
`clauseStart_iff_lastToken` says that nothing else is.
-/

namespace SqlBoundary

open Text

/-- At this place there is a colon that another character makes a longer sign. -/
def Cursor.BeginsSign (place : Cursor) : Prop :=
  [':', '='] <+: place.ahead ∨ [':', ':'] <+: place.ahead

instance (place : Cursor) : Decidable place.BeginsSign :=
  inferInstanceAs (Decidable (_ ∨ _))

/-- The character before this place is a colon. -/
def Cursor.BehindColon (place : Cursor) (script : String) : Prop :=
  ∃ before, script.toList = before ++ ':' :: place.ahead

/-- Behind such a token, or where there is none, a procedural statement may begin. Here `longer`
says of a colon's place whether the colon is part of a longer sign. -/
inductive StartsClause (longer : Cursor → Prop) : Option (Item × Cursor) → Prop
  | first : StartsClause longer none
  | semicolon (place : Cursor) : StartsClause longer (some (.symbol ';', place))
  | word (place : Cursor) {text : String}
      (opener : text ∈ ["BEGIN", "THEN", "ELSE", "DO", "LOOP", "REPEAT"]) :
      StartsClause longer (some (.word text, place))
  | colon {place : Cursor} (alone : ¬ longer place) :
      StartsClause longer (some (.symbol ':', place))

/-- Only of a colon is it asked whether it is part of a longer sign. -/
theorem StartsClause.imp {longer longer' : Cursor → Prop} {last : Option (Item × Cursor)}
    (single : ∀ place, last = some (.symbol ':', place) → ¬ longer place → ¬ longer' place)
    (starts : StartsClause longer last) : StartsClause longer' last := by
  cases starts with
  | first => exact .first
  | semicolon place => exact .semicolon place
  | word place opener => exact .word place opener
  | colon alone => exact .colon (single _ rfl alone)

namespace Session

variable {s t u : Session} {draft e : Option Draft} {d : Draft} {items : List Item}
variable {dialect : Dialect} {delimiter : Delimiter} {script : String}
variable {last : Option (Item × Cursor)}

/-- The states that reading this script can come to, with the last token of the statement and
the place where it begins. Gaps come after a token without being one. -/
inductive Preceded (dialect : Dialect) (delimiter : Delimiter) (script : String) :
    Session → Option Draft → Option (Item × Cursor) → Prop
  | start : Preceded dialect delimiter script (ofScript dialect delimiter script) none none
  | token {s t : Session} {draft : Option Draft} {d : Draft} {item : Item}
      {last : Option (Item × Cursor)} (before : Preceded dialect delimiter script s draft last)
      (taken : s.item? draft = some item) (pass : s.pass draft = .more t (some d)) :
      Preceded dialect delimiter script t (some d) (some (item, s.cursor))
  | gap {s t : Session} {draft : Option Draft} {d : Draft} {last : Option (Item × Cursor)}
      (before : Preceded dialect delimiter script s draft last) (none : s.item? draft = none)
      (pass : s.pass draft = .more t (some d)) : Preceded dialect delimiter script t (some d) last
  | outside {s t : Session} {draft : Option Draft} {last : Option (Item × Cursor)}
      (before : Preceded dialect delimiter script s draft last)
      (pass : s.pass draft = .more t none) : Preceded dialect delimiter script t none none
  | again {s t : Session} {draft : Option Draft} {last : Option (Item × Cursor)}
      (result : Except Fault (Option Statement)) (exhausted : Bool)
      (before : Preceded dialect delimiter script s draft last)
      (answer : (s.pass draft).answer? = some (t, result)) :
      Preceded dialect delimiter script { t with exhausted } none none

/-- Every state that reading can come to is one of these, and the token is the last one there. -/
theorem preceded_of_reached (h : Reached dialect delimiter script s draft items) :
    ∃ last, Preceded dialect delimiter script s draft last ∧ last.map (·.1) = items.getLast? := by
  induction h with
  | start => exact ⟨none, .start, rfl⟩
  | @more s t draft d items before pass ih =>
    obtain ⟨last, preceded, same⟩ := ih
    cases taken : s.item? draft with
    | none => exact ⟨last, .gap preceded taken pass, by simpa using same⟩
    | some item => exact ⟨some (item, s.cursor), .token preceded taken pass, by simp⟩
  | outside _ pass ih =>
    obtain ⟨last, preceded, -⟩ := ih
    exact ⟨none, .outside preceded pass, rfl⟩
  | again result exhausted _ answer ih =>
    obtain ⟨last, preceded, -⟩ := ih
    exact ⟨none, .again result exhausted preceded answer, rfl⟩

/-- What a draft says of the token before it is what the token says itself. -/
def Flagged (last : Option (Item × Cursor)) : Option Draft → Prop
  | none => last = none
  | some d => d.clauseStart = true ↔ StartsClause Cursor.BeginsSign last

theorem flagged_begin (flagged : Flagged last draft) (begun : s.begin draft = .ok (u, d)) :
    d.clauseStart = true ↔ StartsClause Cursor.BeginsSign last := by
  rcases begin_eq_ok_iff.mp begun with ⟨rfl, -⟩ | ⟨rfl, -, rfl, -⟩
  · exact flagged
  · obtain rfl : last = none := flagged
    exact ⟨fun _ => .first, fun _ => rfl⟩

theorem flagged_quoted (d : Draft) (place : Cursor) :
    Flagged (some (.quoted, place)) (some d.afterText) := by
  constructor
  · rintro ⟨⟩
  · rintro ⟨⟩

theorem flagged_symbol (d : Draft) {place : Cursor} {c : Char} {rest : List Char}
    (ahead : place.ahead = c :: rest) :
    Flagged (some (.symbol c, place)) (some (d.afterSymbol c rest)) := by
  have sign : c = ':' → (place.BeginsSign ↔ rest.head? = some '=' ∨ rest.head? = some ':') := by
    rintro rfl
    cases rest <;> simp [Cursor.BeginsSign, ahead, List.cons_prefix_cons, eq_comm]
  simp only [Flagged, Draft.afterSymbol, Bool.or_eq_true, Bool.and_eq_true, beq_iff_eq,
    bne_iff_ne]
  constructor
  · rintro (rfl | ⟨⟨rfl, assign⟩, cast⟩)
    · exact .semicolon place
    · exact .colon fun longer => ((sign rfl).mp longer).elim assign cast
  · intro starts
    cases starts with
    | semicolon => exact Or.inl rfl
    | colon alone =>
      exact Or.inr ⟨⟨rfl, fun assign => alone ((sign rfl).mpr (Or.inl assign))⟩,
        fun cast => alone ((sign rfl).mpr (Or.inr cast))⟩

theorem flagged_word (d : Draft) (place : Cursor) (text : String) :
    Flagged (some (.word text, place)) (some (d.afterWord text)) := by
  simp only [Flagged, Draft.afterWord, Draft.clauseOpeners, List.contains_iff_mem]
  constructor
  · exact .word place
  · rintro ⟨⟩
    assumption

/-- A step that takes a token leaves the draft flagged by it, whatever it was before. -/
theorem step_flagged {item : Item} (h : Step s draft t (some d))
    (taken : s.item? draft = some item) : Flagged (some (item, s.cursor)) (some d) := by
  generalize held : some d = e at h
  cases h with
  | gap ahead found =>
    rw [item?_of_gap ahead found] at taken
    cases taken
  | delimiter => cases held
  | text ahead solid begun token =>
    rw [item?_of_begin ahead solid begun, token] at taken
    cases taken
    exact flagged_quoted _ _
  | symbol ahead solid begun token =>
    rw [item?_of_begin ahead solid begun, token] at taken
    cases taken
    exact flagged_symbol _ ahead
  | directive => cases held
  | word ahead solid begun token _ word =>
    obtain ⟨rfl, -⟩ := takeWord_more word
    rw [item?_of_begin ahead solid begun, token] at taken
    cases taken
    exact flagged_word _ _ _

/-- A step that takes none leaves the draft as it is. -/
theorem step_gap (h : Step s draft t (some d)) (none : s.item? draft = none) :
    draft = some d := by
  generalize held : some d = e at h
  cases h with
  | gap => rfl
  | delimiter => cases held
  | text ahead solid begun token =>
    rw [item?_of_begin ahead solid begun, token] at none
    cases none
  | symbol ahead solid begun token =>
    rw [item?_of_begin ahead solid begun, token] at none
    cases none
  | directive => cases held
  | word ahead solid begun token =>
    rw [item?_of_begin ahead solid begun, token] at none
    cases none

theorem preceded_flagged (h : Preceded dialect delimiter script s draft last) :
    Flagged last draft := by
  induction h with
  | start => rfl
  | token _ taken pass => exact step_flagged (step_of_pass pass) taken
  | gap _ none pass ih =>
    rw [step_gap (step_of_pass pass) none] at ih
    exact ih
  | outside => rfl
  | again => rfl

/-- The state and the last token after a number of passes of one call. -/
def lastToken : Nat → Session → Option Draft → Option (Item × Cursor) →
    Session × Option Draft × Option (Item × Cursor)
  | 0, s, draft, last => (s, draft, last)
  | n + 1, s, draft, last =>
    match s.pass draft with
    | .more t (some d) =>
      lastToken n t (some d) (((s.item? draft).map (·, s.cursor)).or last)
    | .more t none => lastToken n t none none
    | .found _ _ => (s, draft, last)
    | .finished _ => (s, draft, last)
    | .failed _ _ => (s, draft, last)

theorem preceded_lastToken (n : Nat) (h : Preceded dialect delimiter script s draft last) :
    Preceded dialect delimiter script (lastToken n s draft last).1 (lastToken n s draft last).2.1
      (lastToken n s draft last).2.2 := by
  induction n generalizing s draft last with
  | zero => exact h
  | succ n ih =>
    rw [lastToken]
    split
    · next t d pass =>
      cases taken : s.item? draft with
      | none => exact ih (.gap h taken pass)
      | some item => exact ih (.token h taken pass)
    · next pass => exact ih (.outside h pass)
    all_goals exact h

end Session

open Session

variable {s u : Session} {draft : Option Draft} {d : Draft} {last : Option (Item × Cursor)}

/-- The grammar is told that a clause starts at a word just where the token before it says so,
with colons told by what comes after them. To tell them by what comes before them too would be
another rule at the words behind a colon that has another one before it, and only there. -/
theorem clauseStart_iff_lastToken (dialect : Dialect) (delimiter : Delimiter) (script : String)
    (preceded : Preceded dialect delimiter script s draft last) (scans : s.Scans draft u d) :
    ((u.scanned d).clauseStart = true ↔ StartsClause Cursor.BeginsSign last) ∧
    (((u.scanned d).clauseStart = true ↔
        StartsClause (fun place => place.BeginsSign ∨ place.BehindColon script) last) ↔
      ¬ ∃ place, last = some (.symbol ':', place) ∧ ¬ place.BeginsSign ∧
        place.BehindColon script) := by
  have flag : (u.scanned d).clauseStart = true ↔ StartsClause Cursor.BeginsSign last :=
    flagged_begin (preceded_flagged preceded) scans.begun
  refine ⟨flag, ?_⟩
  rw [flag]
  constructor
  · rintro agree ⟨place, rfl, single, behind⟩
    cases agree.mp (.colon single) with
    | colon alone => exact alone (Or.inr behind)
  · intro apart
    constructor
    · refine StartsClause.imp ?_
      rintro place rfl single (longer | behind)
      · exact single longer
      · exact apart ⟨place, rfl, single, behind⟩
    · exact StartsClause.imp fun place _ alone longer => alone (Or.inl longer)

/-- The word behind a cast is told that a clause starts there. -/
theorem clauseStart_iff_lastToken_cast :
    ∃ s draft last u d, Preceded Dialect.mysql .semicolon "BEGIN a::LOOP" s draft last ∧
      s.Scans draft u d ∧ u.wordText = "LOOP" ∧ (u.scanned d).clauseStart = true ∧
      ¬ StartsClause (fun place => place.BeginsSign ∨ place.BehindColon "BEGIN a::LOOP") last := by
  let r := lastToken 5 (.ofScript .mysql .semicolon "BEGIN a::LOOP") none none
  let d := r.2.1.getD (.begin r.1.cursor)
  have preceded : Preceded Dialect.mysql .semicolon "BEGIN a::LOOP" r.1 r.2.1 r.2.2 :=
    preceded_lastToken 5 .start
  have scans : r.1.Scans r.2.1 r.1 d := ⟨by decide +kernel, by decide +kernel⟩
  have word : r.1.wordText = "LOOP" := by decide +kernel
  have flag : (r.1.scanned d).clauseStart = true := by decide +kernel
  obtain ⟨-, agree⟩ := clauseStart_iff_lastToken .mysql .semicolon _ preceded scans
  have colon : r.2.2 = some (.symbol ':', ((Cursor.start "BEGIN a::LOOP".toList).skip 8)) := by
    decide +kernel
  refine ⟨r.1, r.2.1, r.2.2, r.1, d, preceded, scans, word, flag, ?_⟩
  intro starts
  refine agree.mp ⟨fun _ => starts, fun _ => flag⟩ ⟨_, colon, by decide +kernel, ?_⟩
  exact ⟨"BEGIN a".toList, by decide +kernel⟩

/-- So a column that is cast to a type with such a name opens a block that nothing closes. -/
theorem splitFrom_cast_loop :
    splitFrom .mysql .semicolon "CREATE PROCEDURE p() BEGIN SELECT a::LOOP; END;" =
      .error (.unclosedBlock "BEGIN" 1) := by
  decide +kernel

end SqlBoundary
