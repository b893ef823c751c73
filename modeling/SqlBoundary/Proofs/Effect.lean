import SqlBoundary.Split

/-!
# What a token changes

A symbol, a word and the end of a statement each change few parts of a session. They are
given here as explicit updates: parentheses by a symbol, blocks and warnings by a word, then
the active delimiter by a word that classifies the statement. The cursor is moved by `skip`
alone.
-/

namespace SqlBoundary

open Text

/-- The depth of parentheses after a symbol. -/
def parensAfter (level : Int32) (c : Char) : Int32 :=
  if c == '(' then level + 1
  else if c == ')' && level > 0 then level - 1
  else level

theorem parensAfter_other {level : Int32} {c : Char} (left : c ≠ '(') (right : c ≠ ')') :
    parensAfter level c = level := by
  simp [parensAfter, left, right]

theorem parensAfter_last : parensAfter 1 ')' = 0 := by decide

namespace Context

/-- The context after an `END` has closed the block `initiator` inside `outer`, and the one
around it if that shares the `END`. -/
def leave (ctx : Context) (grammar : BlockGrammar) (initiator : String) (outer : List String) :
    Context :=
  if grammar.closesEnclosing initiator { ctx with blocks := outer } then
    { ctx with blocks := outer.tail, lastClosed := some (outer.headD "") }
  else { ctx with blocks := outer, lastClosed := some initiator }

theorem leave_eq (ctx : Context) (grammar : BlockGrammar) (initiator : String)
    (outer : List String) : ∃ blocks lastClosed,
      ctx.leave grammar initiator outer = { ctx with blocks, lastClosed } := by
  rw [leave]
  split
  · exact ⟨_, _, rfl⟩
  · exact ⟨_, _, rfl⟩

end Context

/-- The delimiter that the statement takes now that this word belongs to it as well. -/
def Draft.asks (d : Draft) (grammar : BlockGrammar) (text : String) : Option Delimiter :=
  if d.leading.length < leadingWords then grammar.statementDelimiter? (d.leading ++ [text])
  else none

namespace Session

variable {s t u : Session} {draft e : Option Draft} {d : Draft}

/-- A word that the cursor has passed, as the grammar is asked about it. -/
def asWord (s : Session) (d : Draft) (text : String) (next : Option String) : Word where
  text := text
  previous := d.previous
  next := next
  leading := d.leading
  clauseStart := d.clauseStart
  ahead := s.cursor.ahead

theorem countParen_eq (s : Session) (c : Char) :
    s.countParen c = { s with
      context := { s.context with parens := parensAfter s.context.parens c } } := by
  rw [countParen, parensAfter]
  split
  · rfl
  · split <;> rfl

theorem classify_eq (s : Session) (d : Draft) (text : String) :
    s.classify d text = { s with
      context := s.context.setDelimiter
        ((d.asks s.dialect.blocks text).getD s.context.delimiter) } := by
  rw [classify, Draft.asks]
  split
  · split
    · next asked =>
      rw [asked]
      rfl
    · next asked =>
      rw [asked]
      rfl
  · rfl

theorem openBlock_eq (s : Session) (d : Draft) (text : String) (next : Option String) :
    s.openBlock d text next = { s with context := { s.context with
      blocks := if s.dialect.blocks.opens (s.asWord d text next) s.context
        then text :: s.context.blocks else s.context.blocks } } := by
  rw [openBlock]
  dsimp only
  split
  · next opens =>
    rw [asWord, if_pos opens]
    rfl
  · next closed => rw [asWord, if_neg closed]

theorem closeBlock_nil (closed : s.context.blocks = []) (d : Draft) (next : Option String) :
    s.closeBlock d next = if d.leading.isEmpty && s.dialect.standaloneEnd then .ok s
      else .error .blockUnderflow := by
  simp only [closeBlock, Context.blockDepth, Context.closeBlock, closed, List.length_nil,
    beq_self_eq_true, Bool.true_and]
  rfl

theorem nonempty_of_closesEnclosing {grammar : BlockGrammar} {closed : String} {ctx : Context}
    (h : grammar.closesEnclosing closed ctx = true) : ctx.blocks ≠ [] := by
  intro none
  cases grammar with
  | common => cases h
  | mysql => cases h
  | oracle =>
    simp [BlockGrammar.closesEnclosing, Context.innermost, none,
      BlockGrammar.declarationBlocks] at h

theorem closeBlock_cons {initiator : String} {outer : List String}
    (open_ : s.context.blocks = initiator :: outer) (d : Draft) (next : Option String) :
    s.closeBlock d next = .ok { s with
      context := s.context.leave s.dialect.blocks initiator outer
      warnings := s.warnings ++ (s.mismatch? initiator next).toList } := by
  have enclosing : s.dialect.blocks.closesEnclosing initiator
      { s.context with blocks := outer, lastClosed := some initiator } =
      s.dialect.blocks.closesEnclosing initiator { s.context with blocks := outer } := by
    cases s.dialect.blocks <;> rfl
  have inside : (s.context.blockDepth == 0 && d.leading.isEmpty && s.dialect.standaloneEnd) =
      false := by
    simp [Context.blockDepth, open_]
  have first : s.context.closeBlock =
      .ok (initiator, { s.context with blocks := outer, lastClosed := some initiator }) := by
    simp only [Context.closeBlock, open_]
  rw [closeBlock, if_neg (by rw [inside]; exact Bool.false_ne_true), first]
  simp only [bind, Except.bind, enclosing]
  rw [Context.leave]
  cases shared : s.dialect.blocks.closesEnclosing initiator { s.context with blocks := outer } with
  | false => rfl
  | true =>
    obtain ⟨x, rest, rfl⟩ := List.exists_cons_of_ne_nil (nonempty_of_closesEnclosing shared)
    rfl

/-- Closing a block changes blocks and warnings. -/
theorem closeBlock_ok {next : Option String} (h : s.closeBlock d next = .ok t) :
    ∃ blocks lastClosed warnings, t = { s with
      context := { s.context with blocks, lastClosed }, warnings } := by
  cases blocks : s.context.blocks with
  | nil =>
    rw [closeBlock_nil blocks] at h
    split at h
    · cases h
      exact ⟨s.context.blocks, s.context.lastClosed, s.warnings, rfl⟩
    · cases h
  | cons initiator outer =>
    rw [closeBlock_cons blocks] at h
    cases h
    obtain ⟨blocks, lastClosed, same⟩ := s.context.leave_eq s.dialect.blocks initiator outer
    exact ⟨blocks, lastClosed, _, by rw [same]⟩

/-- A word that is taken is added to the draft. It changes blocks and warnings, and then the
active delimiter if the statement is classified by it. -/
theorem takeWord_more {text : String} (h : s.takeWord d text = .more t e) :
    e = some (d.afterWord text) ∧ ∃ blocks lastClosed warnings,
      t = { s with
        context := { s.context with blocks, lastClosed }, warnings }.classify d text := by
  simp only [takeWord] at h
  split at h
  · split at h
    · next v closed =>
      cases h
      obtain ⟨blocks, lastClosed, warnings, rfl⟩ := closeBlock_ok closed
      exact ⟨rfl, blocks, lastClosed, warnings, rfl⟩
    · cases h
  · cases h
    rw [openBlock_eq]
    exact ⟨rfl, _, s.context.lastClosed, s.warnings, rfl⟩

/-- A word other than `END` at most opens a block, if the delimiter stays. -/
theorem takeWord_name {text : String} (other : text ≠ "END")
    (asks : d.asks s.dialect.blocks text = none) :
    s.takeWord d text = .more { s with context := { s.context with
      blocks := if s.dialect.blocks.opens
          (s.asWord d text (s.context.tokenAhead? s.cursor.ahead)) s.context
        then text :: s.context.blocks else s.context.blocks } } (some (d.afterWord text)) := by
  simp only [takeWord, beq_iff_eq, other, if_false, openBlock_eq, classify_eq, asks]
  rfl

theorem takeWord_open (s : Session) (d : Draft) (text : String) :
    (∃ t e, s.takeWord d text = .more t e) ∨ ∃ t fault, s.takeWord d text = .failed t fault := by
  simp only [takeWord]
  split
  · split
    · exact Or.inl ⟨_, _, rfl⟩
    · exact Or.inr ⟨_, _, rfl⟩
  · exact Or.inl ⟨_, _, rfl⟩

/-- The statement cut out of a draft that ends at `stop`. -/
def cut (s : Session) (d : Draft) (stop : Cursor) : Statement where
  line := d.start.line
  start := d.start.offset
  stop := d.start.offset + byteSize (trimEnd (d.start.upTo stop))
  sql := String.ofList (trimEnd (d.start.upTo stop))
  delimiter := s.context.delimiter

/-- The session with the script's own delimiter active. -/
def restored (s : Session) : Session :=
  { s with context := s.context.setDelimiter s.scriptDelimiter }

theorem endStatement_some (s : Session) (d : Draft) (stop : Cursor) :
    s.endStatement (some d) stop = (s.restored, some (s.cut d stop)) := rfl

theorem endStatement_none (s : Session) (stop : Cursor) :
    s.endStatement none stop = (s.restored, none) := rfl

end Session

end SqlBoundary
