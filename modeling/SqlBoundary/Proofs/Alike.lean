import SqlBoundary.Proofs.Reading
import SqlBoundary.Proofs.Seam

/-!
# Two readings in step

Where blocks are opened by `BEGIN` and `CASE` alone, a pass goes by little: what it sees ahead,
the depths, the active delimiter, and whether the statement has a word yet and which was the
last. Two sessions that agree on this stay alike, pass by pass, however different the rest of
their scripts, their places and their warnings may be.
-/

namespace SqlBoundary

open Text

/-- The fault without the lines it tells of. -/
def Fault.placeless : Fault → Fault
  | .unterminated construct _ => .unterminated construct 0
  | .unclosedBlock initiator _ => .unclosedBlock initiator 0
  | .atLine _ cause => .atLine 0 cause.placeless
  | .stalled _ => .stalled 0
  | fault => fault

/-- Blocks as in standard SQL, no directives, and no line that stands between statements. -/
structure Dialect.Standard (dialect : Dialect) : Prop where
  blocks : dialect.blocks = .common
  directive : dialect.delimiterDirective = false
  terminator : dialect.standaloneTerminator = none
  kind : dialect.kind ≠ .unknown

theorem Vendor.standard {v : Vendor} (h : v = .generic ∨ v = .postgres ∨ v = .sqlserver) :
    v.dialect.Standard := by
  rcases h with rfl | rfl | rfl
  · exact ⟨rfl, rfl, rfl, by decide⟩
  · exact ⟨rfl, rfl, rfl, by decide⟩
  · exact ⟨rfl, rfl, rfl, by decide⟩

/-- What a pass finds ahead of it. Of the token after a word it only matters whether the word is
a `BEGIN` that starts a transaction. -/
inductive Sight
  | ends
  | gap (gap : Gap)
  | text (extent : Extent)
  | word (spelled : List Char) (transaction : Bool)
  | symbol (c : Char)
deriving DecidableEq

/-- The characters that a pass takes. -/
def Sight.length : Sight → Nat
  | .ends => 0
  | .gap .blank => 1
  | .gap (.delimiter n) => n
  | .gap (.terminator n) => n
  | .gap (.comment (.closed n)) => n
  | .gap (.comment (.unclosed _ n)) => n
  | .text (.closed n) => n
  | .text (.unclosed _ n) => n
  | .word spelled _ => spelled.length
  | .symbol _ => 1

/-- Whether a text or a comment seen here is closed. -/
def Sight.Closed : Sight → Prop
  | .gap (.comment (.unclosed _ _)) => False
  | .text (.unclosed _ _) => False
  | _ => True

def Context.seesWord (ctx : Context) (ahead : List Char) : Sight :=
  .word (ctx.wordAhead ahead)
    (String.ofList (upper (ctx.wordAhead ahead)) == "BEGIN" &&
      BlockGrammar.beginsTransaction
        (ctx.tokenAhead? (ahead.drop (ctx.wordAhead ahead).length)))

theorem asks_common (d : Draft) (text : String) : d.asks .common text = none := by
  rw [Draft.asks]
  split <;> rfl

/-- Both drafts have a word or none, and the last word of both is an `END` or of none. -/
structure Draft.Alike (d d' : Draft) : Prop where
  leading : d'.leading.isEmpty = d.leading.isEmpty
  ended : (d'.previous == some "END") = (d.previous == some "END")

theorem Draft.isEmpty_afterWord (d : Draft) (text : String) :
    (d.afterWord text).leading.isEmpty = false := by
  rw [afterWord]
  dsimp only
  split
  · rw [List.isEmpty_eq_false_iff]
    exact List.append_ne_nil_of_right_ne_nil _ (List.cons_ne_nil text [])
  · next full =>
    rw [List.isEmpty_eq_false_iff, ← List.length_pos_iff]
    exact Nat.lt_of_lt_of_le (by decide) (Nat.not_lt.mp full)

namespace Session

variable {s t u s' t' u' : Session} {draft draft' e e' : Option Draft} {d d' : Draft}

/-- The context in which the next token is read: a new draft has the kind of the dialect. -/
def scope (s : Session) (draft : Option Draft) : Context :=
  if draft.isNone then { s.context with kind := s.dialect.kind } else s.context

def sight (s : Session) (draft : Option Draft) : Sight :=
  match s.cursor.ahead with
  | [] => .ends
  | c :: rest =>
    match s.gap? draft c with
    | some gap => .gap gap
    | none =>
      match s.dialect.token (s.scope draft).startsWord c rest with
      | .text extent => .text extent
      | .word => (s.scope draft).seesWord (c :: rest)
      | .symbol x => .symbol x

theorem begin_standard (std : s.dialect.Standard) (draft : Option Draft) :
    s.begin draft = .ok ({ s with context := s.scope draft }, draft.getD (.begin s.cursor)) := by
  cases draft with
  | some d => rfl
  | none => simp [begin, Context.setKind, std.kind, scope]

/-- The two sessions agree on all that a pass goes by, places and what stands ahead apart. -/
structure Alike (s : Session) (draft : Option Draft) (s' : Session) (draft' : Option Draft) :
    Prop where
  dialect : s'.dialect = s.dialect
  delimiter : s'.context.delimiter = s.context.delimiter
  script : s'.scriptDelimiter = s.scriptDelimiter
  parens : s'.context.parens = s.context.parens
  blocks : s'.context.blocks = s.context.blocks
  exhausted : s'.exhausted = s.exhausted
  /-- Before a draft is begun, the kind is that of the statement before. -/
  kind : draft.isSome = true → s'.context.kind = s.context.kind
  drafts : Option.Rel Draft.Alike draft draft'

/-- Two passes that each take `n` characters and lead to the same, but for places. -/
inductive Matched (n : Nat) (cur cur' : Cursor) : Pass → Pass → Prop
  | more {t t' : Session} {e e' : Option Draft} (alike : Alike t e t' e')
      (cursor : t.cursor = cur.skip n) (cursor' : t'.cursor = cur'.skip n) :
      Matched n cur cur' (.more t e) (.more t' e')
  | found {t t' : Session} {statement statement' : Statement} (alike : Alike t none t' none)
      (cursor : t.cursor = cur.skip n) (cursor' : t'.cursor = cur'.skip n)
      (delimiter : statement'.delimiter = statement.delimiter) :
      Matched n cur cur' (.found t statement) (.found t' statement')
  | finished {t t' : Session} : Matched n cur cur' (.finished t) (.finished t')
  | failed {t t' : Session} {fault fault' : Fault} (same : fault'.placeless = fault.placeless) :
      Matched n cur cur' (.failed t fault) (.failed t' fault')

theorem Alike.trans (h : Alike s draft t e) (h' : Alike t e u e') : Alike s draft u e' where
  dialect := h'.dialect.trans h.dialect
  delimiter := h'.delimiter.trans h.delimiter
  script := h'.script.trans h.script
  parens := h'.parens.trans h.parens
  blocks := h'.blocks.trans h.blocks
  exhausted := h'.exhausted.trans h.exhausted
  kind := by
    intro begun
    have begun' : e.isSome = true := by
      cases h.drafts with
      | none => exact begun
      | some _ => rfl
    exact (h'.kind begun').trans (h.kind begun)
  drafts := by
    cases h.drafts with
    | none => exact h'.drafts
    | some same =>
      cases h'.drafts with
      | some same' => exact .some ⟨same'.leading.trans same.leading, same'.ended.trans same.ended⟩

theorem Alike.same_isNone (h : Alike s draft s' draft') : draft'.isNone = draft.isNone := by
  cases h.drafts <;> rfl

theorem Alike.scope_eq (h : Alike s draft s' draft') :
    (s'.scope draft').isLetter = (s.scope draft).isLetter ∧
      (s'.scope draft').delimiter = (s.scope draft).delimiter ∧
      (s'.scope draft').kind = (s.scope draft).kind := by
  have kind : (s'.scope draft').kind = (s.scope draft).kind := by
    rw [scope, scope, h.same_isNone]
    cases draft with
    | none => simp [h.dialect]
    | some d => exact h.kind rfl
  refine ⟨?_, ?_, kind⟩
  · funext c
    simp only [Context.isLetter, kind]
  · rw [scope, scope]
    split <;> split <;> exact h.delimiter

theorem Alike.startsWord (h : Alike s draft s' draft') :
    (s'.scope draft').startsWord = (s.scope draft).startsWord := by
  funext c
  simp only [Context.startsWord, h.scope_eq.1]

theorem Alike.isWordChar (h : Alike s draft s' draft') :
    (s'.scope draft').isWordChar = (s.scope draft).isWordChar := by
  funext c
  simp only [Context.isWordChar, h.scope_eq.1]

theorem Alike.wordAhead (h : Alike s draft s' draft') (ahead : List Char) :
    (s'.scope draft').wordAhead ahead = (s.scope draft).wordAhead ahead := by
  induction ahead with
  | nil => rfl
  | cons c rest ih =>
    rw [Context.wordAhead, Context.wordAhead, ih, h.isWordChar, h.scope_eq.2.1]

theorem Alike.tokenAhead? (h : Alike s draft s' draft') (ahead : List Char) :
    (s'.scope draft').tokenAhead? ahead = (s.scope draft).tokenAhead? ahead := by
  simp only [Context.tokenAhead?, h.isWordChar, h.startsWord]

/-- Alike sessions before the same text see the same. -/
theorem Alike.sight (h : Alike s draft s' draft') (ahead : s'.cursor.ahead = s.cursor.ahead)
    (content : s'.cursor.content = s.cursor.content) : s'.sight draft' = s.sight draft := by
  have line : ∀ x, s'.cursor.atLineOf x = s.cursor.atLineOf x := by
    intro x
    rw [Cursor.atLineOf, Cursor.atLineOf, ahead, content]
  have delimiter : s'.delimiterLength? = s.delimiterLength? := by
    simp only [delimiterLength?, Context.blockDepth, h.delimiter, h.blocks, h.parens, ahead, line]
    rfl
  have terminator : s'.atTerminator = s.atTerminator := by
    simp only [atTerminator, h.dialect]
    congr 1
    funext x
    exact line x
  have gap : ∀ c, s'.gap? draft' c = s.gap? draft c := by
    intro c
    simp only [gap?, delimiter, terminator, h.same_isNone, h.dialect, ahead]
  have word : ∀ cs, (s'.scope draft').seesWord cs = (s.scope draft).seesWord cs := by
    intro cs
    simp only [Context.seesWord, h.wordAhead, h.tokenAhead?]
  simp only [Session.sight, ahead, gap, h.dialect, h.startsWord, word]

/-- A draft has been begun in both. -/
theorem Alike.begun (h : Alike s draft s' draft') :
    Alike { s with context := s.scope draft } (some (draft.getD (.begin s.cursor)))
      { s' with context := s'.scope draft' } (some (draft'.getD (.begin s'.cursor))) where
  dialect := h.dialect
  delimiter := h.scope_eq.2.1
  script := h.script
  parens := by
    simp only [scope]
    split <;> split <;> exact h.parens
  blocks := by
    simp only [scope]
    split <;> split <;> exact h.blocks
  exhausted := h.exhausted
  kind := fun _ => h.scope_eq.2.2
  drafts := by
    cases h.drafts with
    | none => exact .some ⟨rfl, rfl⟩
    | some same => exact .some same

theorem Alike.restored (h : Alike s draft s' draft') : Alike s.restored none s'.restored none where
  dialect := h.dialect
  delimiter := h.script
  script := h.script
  parens := h.parens
  blocks := h.blocks
  exhausted := h.exhausted
  kind := by rintro ⟨⟩
  drafts := .none

theorem Alike.skip (h : Alike s draft s' draft') (n m : Nat) :
    Alike (s.skip n) draft (s'.skip m) draft' :=
  ⟨h.dialect, h.delimiter, h.script, h.parens, h.blocks, h.exhausted, h.kind, h.drafts⟩

/-- Other blocks, and a word or another token more in the draft. -/
theorem Alike.of_blocks {blocks : List String} {lastClosed lastClosed' : Option String}
    {warnings warnings' : List Warning} (h : Alike s draft s' draft')
    (drafts : Option.Rel Draft.Alike e e') (some_ : e.isSome = true → draft.isSome = true) :
    Alike { s with context := { s.context with blocks, lastClosed }, warnings } e
      { s' with context := { s'.context with blocks, lastClosed := lastClosed' },
                warnings := warnings' } e' where
  dialect := h.dialect
  delimiter := h.delimiter
  script := h.script
  parens := h.parens
  blocks := rfl
  exhausted := h.exhausted
  kind := fun begun => h.kind (some_ begun)
  drafts := drafts

theorem matched_passText (h : Alike s draft s' draft') (extent : Extent) :
    Matched (Sight.text extent).length s.cursor s'.cursor (s.passText extent draft)
      (s'.passText extent draft') := by
  cases extent with
  | closed n => exact .more (h.skip n n) rfl rfl
  | unclosed construct n => exact .failed rfl

theorem matched_passGap (h : Alike s draft s' draft') (g : Gap) :
    Matched (Sight.gap g).length s.cursor s'.cursor (s.passGap draft g) (s'.passGap draft' g) := by
  cases g with
  | blank => exact .more (h.skip 1 1) rfl rfl
  | delimiter n =>
    cases h.drafts with
    | none => exact .more (h.skip n n).restored rfl rfl
    | some same => exact .found (h.skip n n).restored rfl rfl h.delimiter
  | terminator n => exact .more (h.skip n n) rfl rfl
  | comment extent =>
    have same : (Sight.gap (.comment extent)).length = (Sight.text extent).length := by
      cases extent <;> rfl
    rw [same]
    exact matched_passText h extent

theorem matched_finish (h : Alike s draft s' draft') :
    Matched 0 s.cursor s'.cursor (s.finish draft) (s'.finish draft') := by
  by_cases outside : s.context.blocks = []
  · rw [finish_outside outside, finish_outside (h.blocks.trans outside)]
    cases h.drafts with
    | none => exact .finished
    | some same => exact .found h.restored rfl rfl h.delimiter
  · rw [finish_inside outside, finish_inside (by rw [h.blocks]; exact outside)]
    refine .failed ?_
    simp only [Fault.placeless, Context.innermost, h.blocks]

theorem classify_standard (std : s.dialect.Standard) (d : Draft) (text : String) :
    s.classify d text = s := by
  rw [classify_eq, std.blocks, asks_common]
  rfl

theorem rel_afterWord (d d' : Draft) (text : String) :
    Option.Rel Draft.Alike (some (d.afterWord text)) (some (d'.afterWord text)) :=
  .some ⟨(d'.isEmpty_afterWord text).trans (d.isEmpty_afterWord text).symm, rfl⟩

theorem matched_closeBlock (std : s.dialect.Standard) (h : Alike s (some d) s' (some d'))
    (text : String) (next next' : Option String) :
    (∃ t t', s.closeBlock d next = .ok t ∧ s'.closeBlock d' next' = .ok t' ∧
        t.cursor = s.cursor ∧ t'.cursor = s'.cursor ∧ t.dialect.Standard ∧
        Alike t (some (d.afterWord text)) t' (some (d'.afterWord text))) ∨
      s.closeBlock d next = .error .blockUnderflow ∧
        s'.closeBlock d' next' = .error .blockUnderflow := by
  have std' : s'.dialect.Standard := h.dialect ▸ std
  have leading : d'.leading.isEmpty = d.leading.isEmpty := by
    cases h.drafts with
    | some same => exact same.leading
  cases blocks : s.context.blocks with
  | nil =>
    rw [closeBlock_nil blocks, closeBlock_nil (h.blocks.trans blocks), h.dialect, leading]
    split
    · refine Or.inl ⟨s, s', rfl, rfl, rfl, rfl, std, ?_⟩
      exact ⟨h.dialect, h.delimiter, h.script, h.parens, h.blocks, h.exhausted, h.kind,
        rel_afterWord d d' text⟩
    · exact Or.inr ⟨rfl, rfl⟩
  | cons initiator outer =>
    have common : ∀ ctx : Context, ctx.leave .common initiator outer =
        { ctx with blocks := outer, lastClosed := some initiator } := fun _ => rfl
    rw [closeBlock_cons blocks, closeBlock_cons (h.blocks.trans blocks), std.blocks, std'.blocks,
      common, common]
    refine Or.inl ⟨_, _, rfl, rfl, rfl, rfl, std, ?_⟩
    exact h.of_blocks (rel_afterWord d d' text) (fun _ => rfl)

/-- Whether a word opens a block, where only `BEGIN` and `CASE` can. -/
theorem opens_common (w w' : Word) (ctx ctx' : Context) (text : w'.text = w.text)
    (ended : w'.followsEnd = w.followsEnd)
    (next : w.text = "BEGIN" →
      BlockGrammar.beginsTransaction w'.next = BlockGrammar.beginsTransaction w.next) :
    BlockGrammar.common.opens w' ctx' = BlockGrammar.common.opens w ctx := by
  simp only [BlockGrammar.opens, BlockGrammar.opensCommon, text, ended]
  split
  · next begin => rw [next begin]
  all_goals rfl

theorem matched_openBlock (std : s.dialect.Standard) (h : Alike s (some d) s' (some d'))
    (text : String) {next next' : Option String}
    (same : text = "BEGIN" →
      BlockGrammar.beginsTransaction next' = BlockGrammar.beginsTransaction next) :
    Alike (s.openBlock d text next) (some (d.afterWord text))
      (s'.openBlock d' text next') (some (d'.afterWord text)) := by
  have std' : s'.dialect.Standard := h.dialect ▸ std
  have ended : (d'.previous == some "END") = (d.previous == some "END") := by
    cases h.drafts with
    | some same => exact same.ended
  have opens := opens_common (s.asWord d text next) (s'.asWord d' text next') s.context s'.context
    rfl ended same
  rw [openBlock_eq, openBlock_eq, std.blocks, std'.blocks, opens, h.blocks]
  exact h.of_blocks (rel_afterWord d d' text) (fun _ => rfl)

theorem matched_takeWord (std : s.dialect.Standard) (h : Alike s (some d) s' (some d'))
    (text : String)
    (next : text = "BEGIN" →
      BlockGrammar.beginsTransaction (s'.context.tokenAhead? s'.cursor.ahead) =
        BlockGrammar.beginsTransaction (s.context.tokenAhead? s.cursor.ahead)) :
    Matched 0 s.cursor s'.cursor (s.takeWord d text) (s'.takeWord d' text) := by
  rw [takeWord, takeWord]
  split
  · rcases matched_closeBlock std h text (s.context.tokenAhead? s.cursor.ahead)
        (s'.context.tokenAhead? s'.cursor.ahead) with
      ⟨t, t', closed, closed', cursor, cursor', after, alike⟩ | ⟨under, under'⟩
    · simp only [closed, closed', classify_standard after,
        classify_standard (alike.dialect ▸ after)]
      exact .more alike cursor cursor'
    · simp only [under, under']
      exact .failed rfl
  · have alike := matched_openBlock std h text next
    have cursor : ∀ (v : Session) (x : Draft) (next : Option String),
        (v.openBlock x text next).cursor = v.cursor ∧
          (v.openBlock x text next).dialect = v.dialect := by
      intro v x next
      rw [openBlock_eq]
      exact ⟨rfl, rfl⟩
    rw [classify_standard ((cursor s d _).2 ▸ std),
      classify_standard ((cursor s' d' _).2 ▸ h.dialect ▸ std)]
    exact .more alike (cursor s d _).1 (cursor s' d' _).1

theorem Matched.of_skip {n m : Nat} {cur cur' : Cursor} {p p' : Pass}
    (h : Matched n (cur.skip m) (cur'.skip m) p p') : Matched (m + n) cur cur' p p' := by
  cases h with
  | more alike moved moved' =>
    exact .more alike (moved.trans (Cursor.skip_skip m n cur))
      (moved'.trans (Cursor.skip_skip m n cur'))
  | found alike moved moved' delimiter =>
    exact .found alike (moved.trans (Cursor.skip_skip m n cur))
      (moved'.trans (Cursor.skip_skip m n cur')) delimiter
  | finished => exact .finished
  | failed same => exact .failed same

theorem matched_readWord (std : s.dialect.Standard) (h : Alike s (some d) s' (some d'))
    (same : s'.context.seesWord s'.cursor.ahead = s.context.seesWord s.cursor.ahead) :
    Matched s.word.length s.cursor s'.cursor (s.readWord d) (s'.readWord d') := by
  simp only [Context.seesWord, Sight.word.injEq] at same
  obtain ⟨word, next⟩ := same
  have word' : s'.word = s.word := word
  have plain : s.mayDirect d = false := by simp [mayDirect, std.directive]
  have plain' : s'.mayDirect d' = false := by simp [mayDirect, h.dialect, std.directive]
  have text : s'.wordText = s.wordText := by rw [wordText, wordText, word']
  rw [readWord_eq, readWord_eq, plain, plain', text]
  simp only [Bool.false_eq_true, if_false]
  have moved : s'.afterWord = s'.skip s.word.length := by rw [afterWord, word']
  have next' : s.wordText = "BEGIN" → BlockGrammar.beginsTransaction
      (s'.afterWord.context.tokenAhead? s'.afterWord.cursor.ahead) =
      BlockGrammar.beginsTransaction
        (s.afterWord.context.tokenAhead? s.afterWord.cursor.ahead) := by
    intro begin
    have spelled : String.ofList (upper (s.context.wordAhead s.cursor.ahead)) = "BEGIN" := begin
    rw [moved]
    simp only [afterWord, skip_context, skip_cursor, Cursor.skip_ahead]
    simpa only [Session.word, word, spelled, beq_self_eq_true, Bool.true_and] using next
  rw [moved] at next' ⊢
  exact (matched_takeWord (s := s.afterWord) std (h.skip _ _) s.wordText next').of_skip

/-- The same words, and a token more. -/
theorem Alike.of_drafts (h : Alike s draft s' draft') (drafts : Option.Rel Draft.Alike e e')
    (some_ : e.isSome = true → draft.isSome = true) : Alike s e s' e' :=
  ⟨h.dialect, h.delimiter, h.script, h.parens, h.blocks, h.exhausted,
    fun begun => h.kind (some_ begun),
    drafts⟩

theorem Alike.afterText (h : Alike s (some d) s' (some d')) :
    Alike s (some d.afterText) s' (some d'.afterText) := by
  refine h.of_drafts ?_ (fun _ => rfl)
  cases h.drafts with
  | some same => exact .some ⟨same.leading, same.ended⟩

theorem matched_symbol (h : Alike s (some d) s' (some d')) (c : Char) (rest rest' : List Char) :
    Matched 1 s.cursor s'.cursor (.more ((s.skip 1).countParen c) (some (d.afterSymbol c rest)))
      (.more ((s'.skip 1).countParen c) (some (d'.afterSymbol c rest'))) := by
  have parens : parensAfter (s'.skip 1).context.parens c = parensAfter (s.skip 1).context.parens c := by
    simp only [skip_context, h.parens]
  have drafts : Option.Rel Draft.Alike (some (d.afterSymbol c rest))
      (some (d'.afterSymbol c rest')) := by
    cases h.drafts with
    | some same => exact .some ⟨same.leading, same.ended⟩
  rw [countParen_eq, countParen_eq, parens]
  exact .more ⟨h.dialect, h.delimiter, h.script, rfl, h.blocks, h.exhausted, fun _ => h.kind rfl,
    drafts⟩ rfl rfl

theorem pass_of_sight (std : s.dialect.Standard) (draft : Option Draft) :
    s.pass draft =
      match s.sight draft with
      | .ends => s.finish draft
      | .gap g => s.passGap draft g
      | .text extent =>
        passText { s with context := s.scope draft } extent
          (some (draft.getD (.begin s.cursor)).afterText)
      | .word _ _ =>
        readWord { s with context := s.scope draft } (draft.getD (.begin s.cursor))
      | .symbol c =>
        .more ((skip { s with context := s.scope draft } 1).countParen c)
          (some ((draft.getD (.begin s.cursor)).afterSymbol c s.cursor.ahead.tail)) := by
  cases ahead : s.cursor.ahead with
  | nil => simp only [pass, sight, ahead]
  | cons c rest =>
    cases found : s.gap? draft c with
    | some g => simp only [pass, sight, ahead, found]
    | none =>
      rw [pass_of_begin ahead found (begin_standard std draft), readToken]
      simp only [sight, ahead, found, List.tail_cons]
      cases token : s.dialect.token (s.scope draft).startsWord c rest with
      | text extent => rfl
      | word => simp only [Context.seesWord]
      | symbol x => rfl

theorem seesWord_of_sight {spelled : List Char} {transaction : Bool}
    (h : s.sight draft = .word spelled transaction) :
    (s.scope draft).seesWord s.cursor.ahead = .word spelled transaction := by
  rw [sight] at h
  split at h
  · cases h
  · next c rest ahead =>
    split at h
    · cases h
    · split at h
      · cases h
      · rw [ahead]
        exact h
      · cases h

/-- Alike sessions that see the same do the same. -/
theorem matched_pass (std : s.dialect.Standard) (h : Alike s draft s' draft')
    (same : s'.sight draft' = s.sight draft) :
    Matched (s.sight draft).length s.cursor s'.cursor (s.pass draft) (s'.pass draft') := by
  have std' : s'.dialect.Standard := h.dialect ▸ std
  rw [pass_of_sight std, pass_of_sight std', same]
  cases seen : s.sight draft with
  | ends => exact matched_finish h
  | gap g => exact matched_passGap h g
  | text extent => exact matched_passText h.begun.afterText extent
  | word spelled transaction =>
    have here := seesWord_of_sight seen
    have here' := seesWord_of_sight (same.trans seen)
    have length : spelled = (s.scope draft).wordAhead s.cursor.ahead := by
      simp only [Context.seesWord, Sight.word.injEq] at here
      exact here.1.symm
    rw [length]
    exact matched_readWord (s := { s with context := s.scope draft }) std h.begun
      (here'.trans here.symm)
  | symbol c => exact matched_symbol h.begun c _ _

/-- A text or a comment that is not closed is a fault. -/
theorem closed_of_pass (std : s.dialect.Standard)
    (h : ∀ t fault, s.pass draft ≠ .failed t fault) : (s.sight draft).Closed := by
  rw [pass_of_sight std] at h
  cases seen : s.sight draft with
  | gap g =>
    cases g with
    | comment extent =>
      cases extent with
      | closed n => trivial
      | unclosed construct n => exact absurd (by rw [seen]; rfl) (h _ _)
    | _ => trivial
  | text extent =>
    cases extent with
    | closed n => trivial
    | unclosed construct n => exact absurd (by rw [seen]; rfl) (h _ _)
  | _ => trivial

variable {p a b : List Char}

theorem Alike.gap?_seam {c : Char} {q : List Char} (h : Alike s draft s' draft') (seam : Seam a b)
    (std : s.dialect.Standard) (ahead : s.cursor.ahead = c :: q ++ a)
    (ahead' : s'.cursor.ahead = c :: q ++ b)
    (delimiter : s'.delimiterLength? = s.delimiterLength?)
    (fits : ∀ extent, s.gap? draft c = some (.comment extent) →
      ∃ n, extent = .closed n ∧ n ≤ (c :: q).length) :
    s'.gap? draft' c = s.gap? draft c := by
  have standing : s.atTerminator = false := by rw [atTerminator, std.terminator]; rfl
  have standing' : s'.atTerminator = false := by rw [atTerminator, h.dialect, std.terminator]; rfl
  simp only [gap?, standing, Bool.and_false, Bool.false_eq_true, if_false] at fits
  simp only [gap?, delimiter, standing, standing', Bool.and_false, Bool.false_eq_true, if_false,
    h.dialect, ahead']
  split
  · rfl
  · next solid =>
    rw [if_neg solid] at fits
    split
    · rfl
    · next outside =>
      simp only [outside, ahead] at fits
      rw [ahead]
      cases found : s.dialect.comment? (c :: q ++ a) with
      | none => rw [seam.comment?_none (List.cons_ne_nil c q) found]
      | some extent =>
        obtain ⟨n, rfl, short⟩ := fits extent (by rw [found]; rfl)
        rw [seam.comment?_closed (List.cons_ne_nil c q) found short]

/-- Before both texts the same is seen of a token or gap that is closed within the common text, but
for where a word ends. -/
theorem Alike.sight_seam_word (h : Alike s draft s' draft') (seam : Seam a b)
    (std : s.dialect.Standard) (nonempty : p ≠ []) (ahead : s.cursor.ahead = p ++ a)
    (ahead' : s'.cursor.ahead = p ++ b) (closed : (s.sight draft).Closed)
    (fits : (s.sight draft).length ≤ p.length)
    (delimiter : s'.delimiterLength? = s.delimiterLength?) :
    s'.sight draft' = match s.sight draft with
      | .word _ _ => (s.scope draft).seesWord (p ++ b)
      | seen => seen := by
  obtain ⟨c, q, rfl⟩ := List.exists_cons_of_ne_nil nonempty
  have gap : s'.gap? draft' c = s.gap? draft c := by
    refine h.gap?_seam seam std ahead ahead' delimiter ?_
    intro extent found
    simp only [Session.sight, ahead, List.cons_append, found] at closed fits
    cases extent with
    | closed n => exact ⟨n, rfl, fits⟩
    | unclosed construct n => exact closed.elim
  rw [Session.sight, ahead'] at *
  simp only [Session.sight, ahead, List.cons_append, gap] at closed fits ⊢
  split
  · rfl
  · next solid =>
    simp only [solid] at closed fits
    have token : s.dialect.token (s.scope draft).startsWord c (q ++ b) =
        s.dialect.token (s.scope draft).startsWord c (q ++ a) := by
      apply seam.token
      intro extent found
      simp only [found] at closed fits
      cases extent with
      | closed n => exact ⟨n, rfl, fits⟩
      | unclosed construct n => exact closed.elim
    rw [h.dialect, h.startsWord, token]
    split
    · rfl
    · simp only [Context.seesWord, h.wordAhead, h.tokenAhead?]
    · rfl

/-- A token or gap that is closed within the common text is the same before both. -/
theorem Alike.sight_seam (h : Alike s draft s' draft') (seam : Seam a b) (std : s.dialect.Standard)
    (nonempty : p ≠ []) (ahead : s.cursor.ahead = p ++ a) (ahead' : s'.cursor.ahead = p ++ b)
    (closed : (s.sight draft).Closed) (fits : (s.sight draft).length ≤ p.length)
    (delimiter : s'.delimiterLength? = s.delimiterLength?)
    (word : (∃ spelled transaction, s.sight draft = .word spelled transaction) →
      (s.scope draft).seesWord (p ++ b) = (s.scope draft).seesWord (p ++ a)) :
    s'.sight draft' = s.sight draft := by
  have seen := h.sight_seam_word seam std nonempty ahead ahead' closed fits delimiter
  cases here : s.sight draft with
  | word spelled transaction =>
    have sees := seesWord_of_sight here
    rw [ahead] at sees
    rw [here] at seen
    exact seen.trans ((word ⟨spelled, transaction, here⟩).trans sees)
  | _ => rw [seen, here]

end Session

end SqlBoundary
