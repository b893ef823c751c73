import SqlBoundary.Proofs.Plain

/-!
# Cutting at separator lines

A delimiter that stands alone makes batches of a plain script: the lines between its lines, joined
again. Reading has no notion of lines. It knows whether the current line has shown a character that
is not blank, and looks ahead to the end of it, which comes to the same.
-/

namespace SqlBoundary

open Text

/-- A line that holds this text and otherwise blanks, in any ASCII case. -/
def isSeparator (mark line : List Char) : Bool := sameIgnoringCase (trim line) mark

/-- The lines of a text between its separator lines, joined again. -/
def batches (mark cs : List Char) : List (List Char) :=
  ((cs.splitOn '\n').splitOnP (isSeparator mark)).map (List.intercalate ['\n'])

/-- The same line by line, with a line feed behind each. `held` is the batch so far. -/
def batchesFrom (mark : List Char) : (held : List Char) → List (List Char) → List (List Char)
  | held, [] => [held]
  | held, line :: lines =>
    if isSeparator mark line then held :: batchesFrom mark [] lines
    else batchesFrom mark (held ++ line ++ ['\n']) lines

section Lines

variable {mark cs line after : List Char} {b c : List Char}

theorem sqlTexts_cons (same : trim b = trim c) {more more' : List (List Char)}
    (later : sqlTexts more = sqlTexts more') : sqlTexts (b :: more) = sqlTexts (c :: more') := by
  simp only [sqlTexts, List.map_cons, List.filter_cons, same] at later ⊢
  split
  · rw [List.map_cons, List.map_cons, later]
  · exact later

theorem blank_lineFeed : ∀ c ∈ ['\n'], isBlank c = true := by decide

theorem isSeparator_blank {c : Char} (blank : isBlank c = true) :
    isSeparator mark (c :: line) = isSeparator mark line := by
  have trimmed : trim ([c] ++ line) = trim line := by
    refine trim_append_of_blank ?_ line
    intro x mem
    rw [List.mem_singleton.mp mem]
    exact blank
  rw [isSeparator, isSeparator, ← trimmed]
  rfl

theorem isSeparator_solid {c : Char} (solid : isBlank c = false) :
    isSeparator mark (c :: line) = sameIgnoringCase (trimEnd (c :: line)) mark := by
  rw [isSeparator, trim_of_solid]
  rintro x ⟨⟩
  exact solid

/-- A line feed behind the last line of a batch makes no difference to its text. -/
theorem sqlTexts_batchesFrom (held : List Char) (lines : List (List Char)) :
    sqlTexts (batchesFrom mark held lines) =
      sqlTexts (((lines.splitOnP (isSeparator mark)).map (List.intercalate ['\n'])).modifyHead
        (held ++ ·)) := by
  induction lines generalizing held with
  | nil => simp [batchesFrom]
  | cons line lines ih =>
    obtain ⟨first, more, split⟩ :=
      List.exists_cons_of_ne_nil (List.splitOnP_ne_nil (isSeparator mark) lines)
    rw [batchesFrom, List.splitOnP_cons_eq_if_modifyHead]
    split
    · have later := ih []
      simp only [split, List.map_cons, List.modifyHead_cons, List.nil_append] at later ⊢
      exact sqlTexts_cons (by simp) later
    · rw [ih, split]
      refine sqlTexts_cons ?_ rfl
      cases first with
      | nil =>
        rw [List.intercalate_singleton, List.intercalate_nil]
        simp only [List.append_nil]
        exact trim_append blank_lineFeed (held ++ line)
      | cons next lines => simp [List.intercalate_cons_cons]

theorem sqlTexts_batches (mark cs : List Char) :
    sqlTexts (batchesFrom mark [] (cs.splitOn '\n')) = sqlTexts (batches mark cs) := by
  rw [sqlTexts_batchesFrom, batches]
  congr 1
  exact congrFun List.modifyHead_id _

/-- The lines of a text: the current one, and those after its line feed. -/
theorem splitOn_currentLine (fresh : '\n' ∉ line) :
    (line.splitOn '\n' = [line]) ∧
      (line ++ '\n' :: after).splitOn '\n' = line :: after.splitOn '\n' := by
  have single : line.splitOn '\n' = [line] := List.splitOn_eq_singleton fresh
  refine ⟨single, ?_⟩
  have cut : (line ++ '\n' :: after).splitOn '\n' = line.splitOn '\n' ++ after.splitOn '\n' :=
    List.splitOnP_append_cons line after (by rfl)
  rw [cut]
  exact congrArg (· ++ _) single

end Lines

/-- A delimiter that stands alone on its line, with some text. -/
structure Delimiter.Separates (d : Delimiter) : Prop where
  alone : d.aloneOnLine = true
  nonempty : d.text.toList ≠ []

theorem Delimiter.Separates.startsAt {d : Delimiter} (separates : d.Separates) (cs : List Char) :
    d.startsAt cs = false := by
  rw [Delimiter.startsAt, separates.alone]
  rfl

namespace Session

variable {s : Session} {draft : Option Draft} {dialect : Dialect} {d : Delimiter}
variable {b line after : List Char}

theorem delimiterLength?_of_separates (separates : d.Separates) (calm : Calm dialect d s draft) :
    s.delimiterLength? =
      if s.cursor.atLineOf d then some (lineLength s.cursor.ahead) else none := by
  simp [delimiterLength?, Context.blockDepth, calm.outside, calm.delimiter, separates.alone]

/-- A token that stands before the end of a line stands within the line. -/
theorem within_line {piece left : List Char} (fresh : '\n' ∉ piece) (ends : LineEnds after)
    (split : line ++ after = piece ++ left) :
    ∃ more, line = piece ++ more ∧ left = more ++ after := by
  rcases List.append_eq_append_iff.mp split with ⟨beyond, rfl, rest⟩ | ⟨more, rfl, rest⟩
  · cases beyond with
    | nil => exact ⟨[], by simp, by simpa using rest.symm⟩
    | cons c beyond =>
      rcases ends with rfl | ⟨feed, rfl⟩
      · cases rest
      · rw [← (List.cons.inj rest).1] at fresh
        simp at fresh
  · exact ⟨more, rfl, rest⟩

theorem advance_content {cur : Cursor} {c : Char} {rest : List Char} (ahead : cur.ahead = c :: rest)
    (inside : c ≠ '\n') : cur.advance.content = (cur.content || !isBlank c) := by
  simp [Cursor.advance, ahead, inside]

theorem skip_content {piece left : List Char} {cur : Cursor} (nonempty : piece ≠ [])
    (solid : ∀ c ∈ piece, isBlank c = false) (ahead : cur.ahead = piece ++ left) :
    (cur.skip piece.length).content = true := by
  induction piece generalizing cur with
  | nil => exact absurd rfl nonempty
  | cons c piece ih =>
    have first := solid c List.mem_cons_self
    cases piece with
    | nil =>
      refine (advance_content ahead (ne_lineFeed_of_solid first)).trans ?_
      rw [first]
      exact Bool.or_true _
    | cons x piece =>
      refine ih (List.cons_ne_nil x piece) (fun z mem => solid z (List.mem_cons_of_mem c mem)) ?_
      rw [Cursor.advance_ahead, ahead]
      rfl

/-- In front of a character that is not blank the line is no separator. -/
theorem undelimited (separates : d.Separates) (calm : Calm dialect d s draft) {c : Char}
    {rest : List Char} (ahead : s.cursor.ahead = c :: rest ++ after) (solid : isBlank c = false)
    (fresh : '\n' ∉ c :: rest) (ends : LineEnds after)
    (kept : s.cursor.content = true ∨ isSeparator d.text.toList (c :: rest) = false) :
    s.delimiterLength? = none := by
  rw [delimiterLength?_of_separates separates calm, if_neg]
  rw [Cursor.atLineOf, Delimiter.fillsLine, ahead, currentLine_of_lineEnds fresh ends,
    Bool.and_eq_true, Bool.not_eq_true']
  rintro ⟨blank, fills⟩
  rcases kept with content | other
  · rw [content] at blank
    cases blank
  · rw [isSeparator_solid solid, fills] at other
    cases other

/-- A line that is no separator, or the rest of one that has begun, is read as a whole. -/
theorem passes_line (steadfast : dialect.Steadfast) (separates : d.Separates)
    (calm : Calm dialect d s draft) (pending : Pending s draft b)
    (ahead : s.cursor.ahead = line ++ after) (fresh : '\n' ∉ line) (ends : LineEnds after)
    (kept : s.cursor.content = true ∨ isSeparator d.text.toList line = false) :
    ∃ t e, Passes s draft t e ∧ Calm dialect d t e ∧ Pending t e (b ++ line) ∧
      t.cursor.ahead = after := by
  generalize size : line.length = n
  induction n using Nat.strong_induction_on generalizing s draft b line with
  | _ n ih =>
    cases line with
    | nil => exact ⟨s, draft, .refl s draft, calm, by rwa [List.append_nil], ahead⟩
    | cons c rest =>
      have here : s.cursor.ahead = c :: (rest ++ after) := ahead
      cases blank : isBlank c with
      | true =>
        have kept' : (s.skip 1).cursor.content = true ∨
            isSeparator d.text.toList rest = false := by
          rcases kept with content | other
          · refine Or.inl ((advance_content here ?_).trans (by rw [content, Bool.true_or]))
            exact fun feed => fresh (feed ▸ List.mem_cons_self)
          · exact Or.inr (isSeparator_blank blank ▸ other)
        obtain ⟨t, e, passes, later⟩ := ih rest.length (by rw [← size]; simp)
          (calm.skip 1 calm.kind) (pending.blank_step here blank) (skip_one_ahead here)
          (fun mem => fresh (List.mem_cons_of_mem c mem)) kept' rfl
        have step : Step s draft (s.skip 1) draft :=
          .gap here (by rw [gap?, if_pos blank]) rfl
        rw [List.append_assoc] at later
        exact ⟨t, e, .step step passes, later⟩
      | false =>
        have on := undelimited separates calm ahead blank fresh ends kept
        obtain ⟨t, y, piece, pass, takes, split, moved, start, calm'⟩ :=
          calm.token steadfast here blank on (fun _ => separates.startsAt _)
        have solid := takes.solid
        have oneLine : '\n' ∉ piece := fun mem => absurd isBlank_lineFeed (by simp [solid _ mem])
        obtain ⟨more, whole, left⟩ := within_line oneLine ends (ahead.symm.trans split)
        obtain ⟨x, tail, spelled, -⟩ := takes.first
        have nonempty : piece ≠ [] := by rw [spelled]; exact List.cons_ne_nil x tail
        have kept' : t.cursor.content = true := by
          rw [moved]
          exact skip_content nonempty solid split
        have shorter : more.length < n := by
          rw [← size, whole, List.length_append]
          have longer := List.length_pos_iff.mpr nonempty
          omega
        obtain ⟨u, e, passes, later⟩ := ih more.length shorter calm'
          (pending.token_step split moved start takes.first) left
          (fun mem => fresh (whole ▸ List.mem_append_right piece mem)) (Or.inl kept') rfl
        rw [List.append_assoc, ← whole] at later
        exact ⟨u, e, .step (step_of_pass pass) passes, later⟩

/-- A separator line ends what is pending; the blanks before its text make no difference. -/
theorem yields_of_separator (steadfast : dialect.Steadfast) (separates : d.Separates)
    (calm : Calm dialect d s draft) (pending : Pending s draft b)
    (ahead : s.cursor.ahead = line ++ after) (fresh : '\n' ∉ line) (ends : LineEnds after)
    (content : s.cursor.content = false) (separator : isSeparator d.text.toList line = true) :
    ∃ t, Calm dialect d t none ∧ Pending t none [] ∧ t.cursor.ahead = after ∧
      ∀ pieces, t.Yields none pieces → s.Yields draft (b :: pieces) := by
  have classified := calm.classified steadfast
  induction line generalizing s b with
  | nil =>
    have empty : lower [] = lower d.text.toList := beq_iff_eq.mp separator
    exact absurd (List.map_eq_nil_iff.mp empty.symm) separates.nonempty
  | cons c rest ih =>
    have here : s.cursor.ahead = c :: (rest ++ after) := ahead
    cases blank : isBlank c with
    | true =>
      have single : ∀ x ∈ [c], isBlank x = true := by
        intro x mem
        rw [List.mem_singleton.mp mem]
        exact blank
      have content' : (s.skip 1).cursor.content = false := by
        refine (advance_content here ?_).trans (by rw [content, blank]; rfl)
        exact fun feed => fresh (feed ▸ List.mem_cons_self)
      have separator' : isSeparator d.text.toList rest = true :=
        (isSeparator_blank blank).symm.trans separator
      have calm' := calm.skip 1 calm.kind
      obtain ⟨t, calmly, nothing, rest, later⟩ := ih calm' (pending.blank_step here blank)
        (skip_one_ahead here) (fun mem => fresh (List.mem_cons_of_mem c mem)) content' separator'
        (calm'.classified steadfast)
      refine ⟨t, calmly, nothing, rest, ?_⟩
      intro pieces yields
      exact (yields_of_blank classified here blank (later pieces yields)).congr
        (sqlTexts_cons (trim_append single b) rfl)
    | false =>
      have whole : currentLine s.cursor.ahead = c :: rest := by
        rw [ahead, currentLine_of_lineEnds fresh ends]
      have active : s.delimiterLength? = some (c :: rest).length := by
        rw [delimiterLength?_of_separates separates calm, if_pos, lineLength, whole]
        rw [Cursor.atLineOf, content, Delimiter.fillsLine, whole]
        exact (isSeparator_solid blank).symm.trans separator
      refine ⟨(s.skip (c :: rest).length).restored, (calm.skip _ calm.kind).restored,
        pending.behind _, ?_, ?_⟩
      · have left : (c :: rest ++ after).drop (c :: rest).length = after := List.drop_left
        rw [← left, ← ahead]
        exact Cursor.skip_ahead _ _
      · intro pieces yields
        exact yields_of_delimiter classified calm.live pending here blank active yields

/-- Reading makes the batches of a plain text, from the start of any line. -/
theorem yields_batches (steadfast : dialect.Steadfast) (separates : d.Separates)
    (calm : Calm dialect d s draft) (pending : Pending s draft b)
    (content : s.cursor.content = false) :
    s.Yields draft (batchesFrom d.text.toList b (s.cursor.ahead.splitOn '\n')) := by
  generalize size : s.cursor.ahead.length = n
  induction n using Nat.strong_induction_on generalizing s draft b with
  | _ n ih =>
    have classified := calm.classified steadfast
    obtain ⟨line, after, ahead, fresh, ends⟩ : ∃ line after, s.cursor.ahead = line ++ after ∧
        '\n' ∉ line ∧ LineEnds after := by
      refine ⟨_, _, (List.take_append_drop (lineLength s.cursor.ahead) _).symm, ?_,
        lineEnds_drop_lineLength _⟩
      rw [take_lineLength]
      exact lineFeed_not_mem_currentLine _
    have next : ∀ {t : Session} {e : Option Draft} {held rest : List Char}, Calm dialect d t e →
        t.cursor.ahead = '\n' :: rest → Pending (t.skip 1) e held → after = '\n' :: rest →
        t.Yields e (batchesFrom d.text.toList held (rest.splitOn '\n')) := by
      intro t e held rest calm' feed pending' same
      have left := skip_one_ahead feed
      have shorter : (t.skip 1).cursor.ahead.length < n := by
        rw [left, ← size, ahead, same, List.length_append, List.length_cons]
        omega
      have fresh' : (t.skip 1).cursor.content = false := by
        change (t.cursor.advance).content = false
        simp [Cursor.advance, feed]
      have later := ih _ shorter (calm'.skip 1 calm'.kind) pending' fresh' rfl
      rw [left] at later
      exact yields_of_blank (calm'.classified steadfast) feed isBlank_lineFeed later
    cases separator : isSeparator d.text.toList line with
    | true =>
      obtain ⟨t, calm', pending', rest, later⟩ :=
        yields_of_separator steadfast separates calm pending ahead fresh ends content separator
      rcases ends with rfl | ⟨more, rfl⟩
      · have last := yields_of_end calm'.outside calm'.live pending' rest
        rw [ahead, List.append_nil, List.splitOn_eq_singleton fresh, batchesFrom, if_pos separator]
        exact later _ last
      · rw [ahead, (splitOn_currentLine fresh).2, batchesFrom, if_pos separator]
        exact later _ (next calm' rest (pending'.blank_step rest isBlank_lineFeed).clear rfl)
    | false =>
      have differs : ¬ isSeparator d.text.toList line = true := by simp [separator]
      obtain ⟨t, e, passes, calm', pending', rest⟩ :=
        passes_line steadfast separates calm pending ahead fresh ends (Or.inr separator)
      rcases ends with rfl | ⟨more, rfl⟩
      · have last := yields_of_end calm'.outside calm'.live pending' rest
        rw [ahead, List.append_nil, List.splitOn_eq_singleton fresh, batchesFrom, if_neg differs]
        refine (yields_of_passes classified passes last).congr ?_
        exact sqlTexts_cons (trim_append blank_lineFeed (b ++ line)).symm rfl
      · rw [ahead, (splitOn_currentLine fresh).2, batchesFrom, if_neg differs]
        exact yields_of_passes classified passes
          (next calm' rest (pending'.blank_step rest isBlank_lineFeed) rfl)

end Session

/-- A plain script for SQL Server is split into its batches. -/
theorem split_batches {script : String}
    (plain : Plain ['\'', '"', '['] ["BEGIN", "CASE", "END"] script.toList) :
    ∃ statements, split .sqlserver script = .ok statements ∧
      statements.map (·.sql) = sqlTexts (batches "GO".toList script.toList) := by
  have quiet : Quiet .sqlserver script.toList := by
    refine plain.quiet ?_ (by decide) (fun directs => ?_)
    · decide
    · cases directs
  have steadfast : Dialect.sqlserver.Steadfast := Vendor.steadfast (v := .sqlserver) (by decide)
  have separates : Delimiter.go.Separates := ⟨rfl, by decide⟩
  rw [← sqlTexts_batches]
  refine Session.splitFrom_of_yields quiet ?_
  intro s calm pending closed start
  have yields := Session.yields_batches steadfast separates calm pending (by rw [start]; rfl)
  rw [start] at yields
  exact yields

/-- Separators in any case and with blanks around them, `GO` with something else on its line, an
empty batch, parentheses that stay open, and a last line without a line feed. -/
theorem split_batches_go :
    ∃ statements, split .sqlserver "SELECT (1; \nGOTO x\n\t go \r\nGo\n\nSELECT 2 GO\n; GO\ngO" =
        .ok statements ∧
      statements.map (·.sql) = ["SELECT (1; \nGOTO x", "SELECT 2 GO\n; GO"] := by
  let script := "SELECT (1; \nGOTO x\n\t go \r\nGo\n\nSELECT 2 GO\n; GO\ngO"
  have plain : Plain ['\'', '"', '['] ["BEGIN", "CASE", "END"] script.toList := by decide +kernel
  obtain ⟨statements, answer, texts⟩ := split_batches plain
  exact ⟨statements, answer, texts.trans (by decide +kernel)⟩

end SqlBoundary
