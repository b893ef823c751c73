import SqlBoundary.Proofs.Calls

/-!
# Where the cursor stands, and what is cut out there

A script is read by bytes, and a part of it can only be cut out between two boundaries of
characters. The cursor never leaves these, whatever it moves past: literals and comments over
many lines, delimiters, directives and texts found far ahead. So every part that reading looks
at can be cut out, in every state, those after a fault included.

A cursor moves one character at a time. The places that it has during a pass are therefore
those some characters after the place where the pass begins.
-/

namespace SqlBoundary

open Text Lexeme

/-- What a cursor says of its place agrees with the characters before it. -/
structure Cursor.Agrees (cur : Cursor) (script : String) (passed : List Char) : Prop where
  whole : script.toList = passed ++ cur.ahead
  offset : cur.offset = byteSize passed
  within : cur.offset ≤ script.utf8ByteSize
  boundary : String.Pos.Raw.IsValid script ⟨cur.offset⟩
  line : cur.line = 1 + passed.count '\n'
  content : cur.content = true ↔
    ∃ before c after, passed = before ++ c :: after ∧ isBlank c = false ∧ '\n' ∉ after

namespace Cursor

theorem skip_offset (n : Nat) (cur : Cursor) :
    (cur.skip n).offset = cur.offset + byteSize (cur.ahead.take n) := by
  induction n generalizing cur with
  | zero => rfl
  | succ n ih =>
    rw [skip, ih]
    cases ahead : cur.ahead with
    | nil => simp [advance, ahead]
    | cons c rest => simp [advance, ahead, Nat.add_assoc]

theorem content_between_iff (passed ahead : List Char) :
    (between passed ahead).content = true ↔
      ∃ before c after, passed = before ++ c :: after ∧ isBlank c = false ∧ '\n' ∉ after := by
  constructor
  · intro content
    obtain ⟨c, mem, solid⟩ := List.any_eq_true.mp content
    obtain ⟨after, before, line⟩ := List.append_of_mem mem
    have split : passed.reverse =
        after ++ c :: (before ++ passed.reverse.dropWhile (· != '\n')) := by
      conv => lhs; rw [← List.takeWhile_append_dropWhile (p := (· != '\n')) (l := passed.reverse)]
      rw [line, List.append_assoc, List.cons_append]
    refine ⟨(before ++ passed.reverse.dropWhile (· != '\n')).reverse, c, after.reverse, ?_,
      by simpa using solid, ?_⟩
    · have reversed := congrArg List.reverse split
      simpa using reversed
    · intro feed
      have within : '\n' ∈ passed.reverse.takeWhile (· != '\n') := by
        rw [line]
        exact List.mem_append_left _ (List.mem_reverse.mp feed)
      have := List.all_eq_true.mp List.all_takeWhile _ within
      simp at this
  · rintro ⟨before, c, after, rfl, solid, fresh⟩
    have inside : ∀ x ∈ after.reverse, (x != '\n') = true := by
      intro x mem
      rw [bne_iff_ne]
      rintro rfl
      exact fresh (List.mem_reverse.mp mem)
    have feed : (c != '\n') = true := bne_iff_ne.mpr (ne_lineFeed_of_solid solid)
    have reversed : (before ++ c :: after).reverse = after.reverse ++ c :: before.reverse := by simp
    rw [between, reversed, List.takeWhile_append_of_pos inside,
      List.takeWhile_cons_of_pos (p := (· != '\n')) feed]
    simp [solid]

end Cursor

namespace Session

variable {s t u : Session} {draft e : Option Draft} {d : Draft} {script : String}

/-- The parts of the script that the next pass may look at, each with the bytes between which
it is cut out. -/
inductive Cuts (script : String) (s : Session) :
    Option Draft → Nat → Nat → List Char → Prop
  /-- All that is ahead, of any place that the cursor comes to. -/
  | rest (draft : Option Draft) (k : Nat) :
      Cuts script s draft (s.cursor.skip k).offset script.utf8ByteSize (s.cursor.skip k).ahead
  /-- The rest of the line there. -/
  | line (draft : Option Draft) (k : Nat) :
      Cuts script s draft (s.cursor.skip k).offset
        ((s.cursor.skip k).offset + byteSize (currentLine (s.cursor.skip k).ahead))
        (currentLine (s.cursor.skip k).ahead)
  | delimiter {draft : Option Draft} (starts : s.context.delimiter.startsAt s.cursor.ahead = true) :
      Cuts script s draft s.cursor.offset
        (s.cursor.offset + s.context.delimiter.text.utf8ByteSize) s.context.delimiter.text.toList
  | word {draft : Option Draft} {u : Session} {d : Draft} (begun : s.begin draft = .ok (u, d)) :
      Cuts script s draft s.cursor.offset u.afterWord.cursor.offset u.word
  /-- The token after a word, if it is a word too. -/
  | token {draft : Option Draft} {u : Session} {d : Draft} {gap : List Char} {c : Char}
      {rest : List Char} (begun : s.begin draft = .ok (u, d))
      (ahead : u.afterWord.cursor.ahead = gap ++ c :: rest)
      (trimmed : trimStart u.afterWord.cursor.ahead = c :: rest) :
      Cuts script s draft (u.afterWord.cursor.offset + byteSize gap)
        (u.afterWord.cursor.offset + byteSize gap +
          byteSize (c :: rest.takeWhile u.context.isWordChar))
        (c :: rest.takeWhile u.context.isWordChar)
  /-- The tag of a dollar-quoted text, with both of its dollars. -/
  | tag {draft : Option Draft} {tag body : List Char}
      (ahead : s.cursor.ahead = '$' :: (tag ++ '$' :: body))
      (opens : dollarTag? (tag ++ '$' :: body) = some tag) :
      Cuts script s draft s.cursor.offset (s.cursor.offset + (byteSize tag + 2))
        ('$' :: tag ++ ['$'])
  /-- The text after the tag, in which it is looked for. -/
  | body {draft : Option Draft} {tag body : List Char}
      (ahead : s.cursor.ahead = '$' :: (tag ++ '$' :: body))
      (opens : dollarTag? (tag ++ '$' :: body) = some tag) :
      Cuts script s draft (s.cursor.offset + (byteSize tag + 2)) script.utf8ByteSize body
  /-- A dollar-quoted text from its first tag to its second. -/
  | quoted {draft : Option Draft} {tag body : List Char} {n : Nat}
      (ahead : s.cursor.ahead = '$' :: (tag ++ '$' :: body))
      (opens : dollarTag? (tag ++ '$' :: body) = some tag)
      (closes : position? ('$' :: tag ++ ['$']) body = some n) :
      Cuts script s draft s.cursor.offset
        (s.cursor.offset + (byteSize tag + 2) + byteSize (body.take n) + (byteSize tag + 2))
        (('$' :: tag ++ ['$']) ++ body.take n ++ ('$' :: tag ++ ['$']))
  /-- A line that may be a directive, from its first word on. -/
  | directive {draft : Option Draft} {u : Session} {d : Draft}
      (begun : s.begin draft = .ok (u, d)) :
      Cuts script s draft s.cursor.offset
        (u.afterWord.cursor.offset + byteSize (currentLine u.afterWord.cursor.ahead))
        (currentLine s.cursor.ahead)
  /-- The statement before a delimiter. -/
  | statement (d : Draft) :
      Cuts script s (some d) d.start.offset s.cursor.offset (d.start.upTo s.cursor)
  /-- The statement at the end of the script. -/
  | last {d : Draft} (ended : s.cursor.ahead = []) :
      Cuts script s (some d) d.start.offset script.utf8ByteSize (d.start.upTo s.cursor)

theorem Placed.agrees (placed : Placed script.toList s) :
    ∃ passed, s.cursor.Agrees script passed := by
  obtain ⟨passed, whole, place⟩ := placed
  have slice : Slice script (byteSize passed) (byteSize passed + byteSize s.cursor.ahead)
      s.cursor.ahead := Slice.of_append (whole.trans (List.append_nil _).symm)
  have offset : s.cursor.offset = byteSize passed := by rw [place]; rfl
  refine ⟨passed, whole, offset, ?_, ?_, ?_, ?_⟩
  · rw [offset]
    exact Nat.le_trans slice.ordered slice.within
  · rw [offset]
    exact slice.startValid
  · rw [place, Nat.add_comm]
    rfl
  · rw [place]
    exact Cursor.content_between_iff passed s.cursor.ahead

/-- Whatever is ahead next can be cut out. -/
theorem Placed.slice (placed : Placed script.toList s) {text : List Char}
    (next : text <+: s.cursor.ahead) :
    Slice script s.cursor.offset (s.cursor.offset + byteSize text) text := by
  obtain ⟨passed, whole, place⟩ := placed
  obtain ⟨after, ahead⟩ := next
  have offset : s.cursor.offset = byteSize passed := by rw [place]; rfl
  rw [offset]
  exact Slice.of_append (by rw [whole, ← ahead, List.append_assoc])

theorem Placed.slice_rest (placed : Placed script.toList s) :
    Slice script s.cursor.offset script.utf8ByteSize s.cursor.ahead := by
  have size : script.utf8ByteSize = s.cursor.offset + byteSize s.cursor.ahead := by
    rw [placed.offset, byteSize_eq_utf8ByteSize, String.ofList_toList]
  rw [size]
  exact placed.slice List.prefix_rfl

/-- A draft starts where the cursor has been before. -/
def Anchored (script : List Char) (s : Session) (draft : Option Draft) : Prop :=
  ∀ d ∈ draft, ∃ before text, script = before ++ text ++ s.cursor.ahead ∧
    d.start = .between before (text ++ s.cursor.ahead) ∧
    s.cursor = .between (before ++ text) s.cursor.ahead

theorem anchored_none (script : List Char) (s : Session) : Anchored script s none := by
  rintro d ⟨⟩

theorem step_anchored {script : List Char} (h : Step s draft t e) (placed : Placed script s)
    (anchored : Anchored script s draft) : Anchored script t e := by
  obtain ⟨piece, split, moved⟩ := step_cut h
  rintro d rfl
  have start := step_start h
  cases draft with
  | none =>
    obtain ⟨passed, whole, place⟩ := placed
    refine ⟨passed, piece, ?_, ?_, moved place⟩
    · rw [whole, split, List.append_assoc]
    · rw [start, ← split]
      exact place
  | some x =>
    obtain ⟨before, text, whole, begun, place⟩ := anchored x rfl
    refine ⟨before, text ++ piece, ?_, ?_, ?_⟩
    · rw [whole, split]
      simp only [List.append_assoc]
    · rw [start, List.append_assoc, ← split]
      exact begun
    · rw [← List.append_assoc]
      exact moved place

theorem passes_anchored {script : List Char} (h : Passes s draft t e) (placed : Placed script s)
    (anchored : Anchored script s draft) : Placed script t ∧ Anchored script t e := by
  induction h with
  | refl => exact ⟨placed, anchored⟩
  | step first _ ih =>
    obtain ⟨n, moved⟩ := step_skip first
    exact ih (placed.skip moved) (step_anchored first placed anchored)

/-- The text of a draft, up to the cursor. -/
theorem Anchored.slice (anchored : Anchored script.toList s (some d)) :
    Slice script d.start.offset s.cursor.offset (d.start.upTo s.cursor) := by
  obtain ⟨before, text, whole, start, place⟩ := anchored d rfl
  have cut : d.start.upTo s.cursor = text := by
    have same := Cursor.upTo_between before text s.cursor.ahead
    rw [← start, ← place] at same
    exact same
  have first : d.start.offset = byteSize before := by rw [start]; rfl
  have stop : s.cursor.offset = byteSize before + byteSize text := by
    rw [place]
    exact byteSize_append before text
  rw [cut, first, stop]
  exact Slice.of_append whole

theorem Placed.afterWord (placed : Placed script.toList s) (begun : s.begin draft = .ok (u, d)) :
    Placed script.toList u.afterWord := by
  refine placed.skip (n := u.word.length) ?_
  rw [Session.afterWord, skip_cursor, begin_cursor begun]

theorem afterWord_offset (s : Session) :
    s.afterWord.cursor.offset = s.cursor.offset + byteSize s.word := by
  rw [afterWord, skip_cursor, Cursor.skip_offset, take_word]

theorem byteSize_mark (tag : List Char) : byteSize ('$' :: tag ++ ['$']) = byteSize tag + 2 := by
  have dollar : '$'.utf8Size = 1 := by decide
  simp only [List.cons_append, byteSize_cons, byteSize_append, byteSize_nil, dollar]
  omega

/-- Each of these parts can be cut out where the cursor stands between two parts of the script,
and the draft starts where it has been before. -/
theorem Cuts.slice {start stop : Nat} {text : List Char}
    (h : s.Cuts script draft start stop text) (placed : Placed script.toList s)
    (anchored : Anchored script.toList s draft) : Slice script start stop text := by
  cases h with
  | rest draft k => exact (placed.skip (t := s.skip k) rfl).slice_rest
  | line draft k => exact (placed.skip (t := s.skip k) rfl).slice (List.takeWhile_prefix _)
  | delimiter starts =>
    simp only [Delimiter.startsAt, Bool.and_eq_true, List.isPrefixOf_iff_prefix] at starts
    have slice := placed.slice starts.2
    rw [byteSize_eq_utf8ByteSize, String.ofList_toList] at slice
    exact slice
  | @word _ u d begun =>
    rw [afterWord_offset, begin_cursor begun]
    refine placed.slice ?_
    rw [← begin_cursor begun]
    exact u.context.wordAhead_prefix u.cursor.ahead
  | @token _ u d gap c rest begun ahead =>
    have next : Placed script.toList (u.afterWord.skip gap.length) :=
      (placed.afterWord begun).skip rfl
    have offset : (u.afterWord.skip gap.length).cursor.offset =
        u.afterWord.cursor.offset + byteSize gap := by
      rw [skip_cursor, Cursor.skip_offset, ahead, List.take_left' rfl]
    rw [← offset]
    refine next.slice ?_
    rw [skip_cursor, Cursor.skip_ahead, ahead, List.drop_left' rfl]
    exact List.cons_prefix_cons.mpr ⟨rfl, List.takeWhile_prefix _⟩
  | @tag _ tag body ahead =>
    rw [← byteSize_mark]
    exact placed.slice ⟨body, by rw [ahead]; simp⟩
  | @body _ tag body ahead =>
    have split : s.cursor.ahead = ('$' :: tag ++ ['$']) ++ text := by rw [ahead]; simp
    have next := (placed.skip (t := s.skip ('$' :: tag ++ ['$']).length) rfl).slice_rest
    rw [skip_cursor, Cursor.skip_offset, Cursor.skip_ahead, split, List.take_left' rfl,
      List.drop_left' rfl, byteSize_mark] at next
    exact next
  | @quoted _ tag body n ahead _ closes =>
    obtain ⟨⟨after, found⟩, -, -⟩ := position?_eq_some_iff.mp closes
    have whole : ('$' :: tag ++ ['$']) ++ body.take n ++ ('$' :: tag ++ ['$']) <+:
        s.cursor.ahead := by
      refine ⟨after, ?_⟩
      rw [List.append_assoc, found, List.append_assoc, List.take_append_drop, ahead]
      simp
    have slice := placed.slice whole
    rw [byteSize_append, byteSize_append, byteSize_mark] at slice
    simpa only [Nat.add_assoc] using slice
  | @directive _ u d begun =>
    have line : currentLine s.cursor.ahead =
        u.word ++ currentLine u.afterWord.cursor.ahead := by
      have oneLine : '\n' ∉ u.word := u.context.lineFeed_not_mem_wordAhead u.cursor.ahead
      rw [← begin_cursor begun, ahead_eq_word_append, currentLine_append_of_not_mem oneLine]
    rw [afterWord_offset, begin_cursor begun, Nat.add_assoc, ← byteSize_append, ← line]
    exact placed.slice (List.takeWhile_prefix _)
  | statement d => exact anchored.slice
  | @last d ended =>
    have offset : script.utf8ByteSize = s.cursor.offset := by
      have whole := placed.offset
      rw [ended, byteSize_nil, Nat.add_zero, byteSize_eq_utf8ByteSize,
        String.ofList_toList] at whole
      exact whole.symm
    rw [offset]
    exact anchored.slice

/-- Whatever has been asked of a session before, and however that ended: the cursor agrees with
the script at every place that it comes to, and every part looked at can be cut out there. -/
theorem slices_after_calls (dialect : Dialect) (delimiter : Delimiter) (script : String)
    (calls : List Call) (passes : Passes ((ofScript dialect delimiter script).after calls) none
      s draft) :
    (∀ k, ∃ passed, (s.cursor.skip k).Agrees script passed) ∧
      ∀ start stop text, s.Cuts script draft start stop text → Slice script start stop text := by
  have begins : Placed script.toList ((ofScript dialect delimiter script).after calls) :=
    after_placed calls (placed_ofScript dialect delimiter script)
  obtain ⟨placed, anchored⟩ := passes_anchored passes begins (anchored_none _ _)
  constructor
  · intro k
    exact Placed.agrees (s := s.skip k) (placed.skip rfl)
  · intro start stop text cut
    exact cut.slice placed anchored

/-- After a fault, on the next line and behind a character of two bytes. -/
theorem slices_after_calls_fault :
    let s := (ofScript .oracle .semicolon "END\né := 1").after [.next]
    (ofScript .oracle .semicolon "END\né := 1").next.2 = .error (.atLine 1 .blockUnderflow) ∧
      s.cursor = ⟨"\né := 1".toList, 3, 3, 1, true⟩ ∧
      ∃ t d, Passes s none t (some d) ∧ t.cursor = ⟨" := 1".toList, 5, 6, 2, true⟩ ∧
        (∃ passed, t.cursor.Agrees "END\né := 1" passed) ∧ Slice "END\né := 1" 4 6 ['é'] := by
  intro s
  let r := follow 2 s none []
  let d := r.2.1.getD (.begin s.cursor)
  have blank : s.pass none = .more (s.skip 1) none := by decide +kernel
  have word : (s.skip 1).pass none = .more r.1 (some d) := by decide +kernel
  have passes : Passes s none r.1 (some d) :=
    .step (step_of_pass blank) (.step (step_of_pass word) (.refl _ _))
  obtain ⟨places, slices⟩ := slices_after_calls .oracle .semicolon "END\né := 1" [.next] passes
  have cut := slices _ _ _ (.statement d)
  have start : d.start.offset = 4 := by decide +kernel
  have stop : r.1.cursor.offset = 6 := by decide +kernel
  have text : d.start.upTo r.1.cursor = ['é'] := by decide +kernel
  rw [start, stop, text] at cut
  exact ⟨by decide +kernel, by decide +kernel, r.1, d, passes, by decide +kernel, places 0, cut⟩

end Session

end SqlBoundary
