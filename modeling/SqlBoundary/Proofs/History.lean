import SqlBoundary.Proofs.Reading

/-!
# The tokens of a statement

Every state that reading a script can come to, with the tokens that the statement being read
consists of so far. The tokens are told from what each pass takes, and from nothing that a
draft remembers; what a draft remembers is then a fact about them.

Reading may go on after a fault, and after the end of the script has been met.
-/

namespace SqlBoundary

/-- A token that has been read. Literals and quoted identifiers are only told apart from the
other two. -/
inductive Item
  | word (text : String)
  | symbol (c : Char)
  | quoted
deriving DecidableEq

def Item.word? : Item → Option String
  | .word text => some text
  | .symbol _ => none
  | .quoted => none

/-- The last word among these tokens, whatever comes after it. -/
def lastWord? (items : List Item) : Option String := (items.filterMap Item.word?).getLast?

@[simp] theorem lastWord?_word (items : List Item) (text : String) :
    lastWord? (items ++ [.word text]) = some text := by
  simp [lastWord?, Item.word?]

@[simp] theorem lastWord?_symbol (items : List Item) (c : Char) :
    lastWord? (items ++ [.symbol c]) = lastWord? items := by
  simp [lastWord?, Item.word?]

@[simp] theorem lastWord?_quoted (items : List Item) :
    lastWord? (items ++ [.quoted]) = lastWord? items := by
  simp [lastWord?, Item.word?]

namespace Session

variable {s t u : Session} {draft e : Option Draft} {d : Draft} {items : List Item}

/-- The token that the next pass takes, if it takes one. -/
def item? (s : Session) (draft : Option Draft) : Option Item :=
  match s.cursor.ahead with
  | [] => none
  | c :: rest =>
    if (s.gap? draft c).isSome then none
    else match s.begin draft with
      | .error _ => none
      | .ok (u, _) =>
        match u.dialect.token u.context.startsWord c rest with
        | .text _ => some .quoted
        | .word => some (.word u.wordText)
        | .symbol c => some (.symbol c)

/-- The states that reading this script can come to, with the tokens of the statement. -/
inductive Reached (dialect : Dialect) (delimiter : Delimiter) (script : String) :
    Session → Option Draft → List Item → Prop
  | start : Reached dialect delimiter script (ofScript dialect delimiter script) none []
  | more {s t : Session} {draft : Option Draft} {d : Draft} {items : List Item}
      (before : Reached dialect delimiter script s draft items)
      (pass : s.pass draft = .more t (some d)) :
      Reached dialect delimiter script t (some d) (items ++ (s.item? draft).toList)
  | outside {s t : Session} {draft : Option Draft} {items : List Item}
      (before : Reached dialect delimiter script s draft items)
      (pass : s.pass draft = .more t none) : Reached dialect delimiter script t none []
  | again {s t : Session} {draft : Option Draft} {items : List Item}
      (result : Except Fault (Option Statement)) (exhausted : Bool)
      (before : Reached dialect delimiter script s draft items)
      (answer : (s.pass draft).answer? = some (t, result)) :
      Reached dialect delimiter script { t with exhausted } none []

theorem item?_of_gap {c : Char} {rest : List Char} {g : Gap}
    (ahead : s.cursor.ahead = c :: rest) (found : s.gap? draft c = some g) :
    s.item? draft = none := by
  simp [item?, ahead, found]

theorem item?_of_begin {c : Char} {rest : List Char} (ahead : s.cursor.ahead = c :: rest)
    (solid : s.gap? draft c = none) (begun : s.begin draft = .ok (u, d)) :
    s.item? draft =
      match u.dialect.token u.context.startsWord c rest with
      | .text _ => some .quoted
      | .word => some (.word u.wordText)
      | .symbol c => some (.symbol c) := by
  simp [item?, ahead, solid, begun]

/-- The state and the tokens after a number of passes, each call after the last one ends. -/
def follow : Nat → Session → Option Draft → List Item → Session × Option Draft × List Item
  | 0, s, draft, items => (s, draft, items)
  | n + 1, s, draft, items =>
    match s.pass draft with
    | .more t (some d) => follow n t (some d) (items ++ (s.item? draft).toList)
    | .more t none => follow n t none []
    | .found t _ => follow n t none []
    | .finished t => follow n t none []
    | .failed t _ => follow n t none []

theorem reached_follow {dialect : Dialect} {delimiter : Delimiter} {script : String} (n : Nat)
    (h : Reached dialect delimiter script s draft items) :
    Reached dialect delimiter script (follow n s draft items).1 (follow n s draft items).2.1
      (follow n s draft items).2.2 := by
  induction n generalizing s draft items with
  | zero => exact h
  | succ n ih =>
    rw [follow]
    split
    · next pass => exact ih (.more h pass)
    · next pass => exact ih (.outside h pass)
    · next t statement pass =>
      exact ih (.again (.ok (some statement)) t.exhausted h (by rw [pass]; rfl))
    · next t pass => exact ih (.again (.ok none) t.exhausted h (by rw [pass]; rfl))
    · next t fault pass =>
      exact ih (.again (.error fault) t.exhausted h (by rw [pass]; rfl))

/-- What is true of a draft and the tokens read into it, with no token before there is a draft. -/
def Told (P : List Item → Draft → Prop) (items : List Item) : Option Draft → Prop
  | none => items = []
  | some d => P items d

/-- It is true of a draft that begins, and each token keeps it. -/
structure Tracks (P : List Item → Draft → Prop) : Prop where
  begin (start : Cursor) : P [] (.begin start)
  quoted {items : List Item} {d : Draft} (told : P items d) : P (items ++ [.quoted]) d.afterText
  symbol {items : List Item} {d : Draft} (c : Char) (rest : List Char) (told : P items d) :
    P (items ++ [.symbol c]) (d.afterSymbol c rest)
  word {items : List Item} {d : Draft} (text : String) (told : P items d) :
    P (items ++ [.word text]) (d.afterWord text)

section tracks

variable {P : List Item → Draft → Prop} {dialect : Dialect} {delimiter : Delimiter}
variable {script : String}

theorem Tracks.told_begin (tracks : Tracks P) (told : Told P items draft)
    (begun : s.begin draft = .ok (u, d)) : P items d := by
  rcases begin_eq_ok_iff.mp begun with ⟨rfl, -⟩ | ⟨rfl, -, rfl, -⟩
  · exact told
  · obtain rfl : items = [] := told
    exact tracks.begin s.cursor

theorem Tracks.told_step (tracks : Tracks P) (h : Step s draft t (some d))
    (told : Told P items draft) : P (items ++ (s.item? draft).toList) d := by
  generalize held : some d = e at h
  cases h with
  | gap ahead found =>
    subst held
    rw [item?_of_gap ahead found, Option.toList_none, List.append_nil]
    exact told
  | delimiter => cases held
  | text ahead solid begun token =>
    cases held
    rw [item?_of_begin ahead solid begun, token]
    exact tracks.quoted (tracks.told_begin told begun)
  | symbol ahead solid begun token =>
    cases held
    rw [item?_of_begin ahead solid begun, token]
    exact tracks.symbol _ _ (tracks.told_begin told begun)
  | directive => cases held
  | word ahead solid begun token _ taken =>
    obtain ⟨rfl, -⟩ := takeWord_more taken
    cases held
    rw [item?_of_begin ahead solid begun, token]
    exact tracks.word _ (tracks.told_begin told begun)

/-- Then it is true in every state that reading can come to. -/
theorem Tracks.told_of_reached (tracks : Tracks P)
    (h : Reached dialect delimiter script s draft items) : Told P items draft := by
  induction h with
  | start => rfl
  | more _ pass ih => exact tracks.told_step (step_of_pass pass) ih
  | outside => rfl
  | again => rfl

end tracks

/-- What a draft remembers of the tokens read. -/
def Recalls (items : List Item) (draft : Option Draft) : Prop :=
  match draft with
  | none => items = []
  | some d => d.previous = lastWord? items

theorem tracks_previous : Tracks fun items d => d.previous = lastWord? items where
  begin _ := rfl
  quoted told := told.trans (lastWord?_quoted _).symm
  symbol c _ told := told.trans (lastWord?_symbol _ c).symm
  word text _ := (lastWord?_word _ text).symm

theorem recalls_begin (recalls : Recalls items draft) (begun : s.begin draft = .ok (u, d)) :
    d.previous = lastWord? items := by
  refine tracks_previous.told_begin ?_ begun
  cases draft <;> exact recalls

variable {dialect : Dialect} {delimiter : Delimiter} {script : String}

/-- The word that a draft remembers is the last one of the statement, however many tokens of
another kind have been read since. -/
theorem recalls_of_reached (h : Reached dialect delimiter script s draft items) :
    Recalls items draft := by
  have told := tracks_previous.told_of_reached h
  cases draft <;> exact told

/-- An answer leaves all but the cursor, the active delimiter and the kind as they are. -/
theorem answer_frame {r : Except Fault (Option Statement)}
    (h : (s.pass draft).answer? = some (t, r)) : ∃ n delimiter kind,
      t = { s with
        cursor := s.cursor.skip n, context := { s.context with delimiter, kind } } ∧
      (delimiter = s.context.delimiter ∨ delimiter = s.scriptDelimiter) := by
  cases pass : s.pass draft with
  | more => simp [pass, Pass.answer?] at h
  | found v statement =>
    rw [pass] at h
    cases h
    obtain ⟨n, rfl⟩ := restored_of_found pass
    exact ⟨n, _, _, rfl, Or.inr rfl⟩
  | finished v =>
    rw [pass] at h
    cases h
    obtain ⟨-, -, -, rfl⟩ := pass_finished pass
    exact ⟨0, _, _, rfl, Or.inr rfl⟩
  | failed v fault =>
    rw [pass] at h
    cases h
    obtain ⟨n, kind, rfl⟩ := failed_frame pass
    exact ⟨n, _, kind, rfl, Or.inl rfl⟩

theorem answer?_dialect {r : Except Fault (Option Statement)}
    (h : (s.pass draft).answer? = some (t, r)) : t.dialect = s.dialect := by
  obtain ⟨n, _, _, rfl, -⟩ := answer_frame h
  rfl

theorem dialect_of_reached (h : Reached dialect delimiter script s draft items) :
    s.dialect = dialect := by
  induction h with
  | start => rfl
  | more _ pass ih => rw [step_dialect (step_of_pass pass), ih]
  | outside _ pass ih => rw [step_dialect (step_of_pass pass), ih]
  | again _ _ _ answer ih => exact (answer?_dialect answer).trans ih

end Session

end SqlBoundary
