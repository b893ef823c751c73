import SqlBoundary.Proofs.KeywordSearch
import SqlBoundary.Proofs.MysqlText

/-!
# Function calls in programs of MySQL

After `THEN` and `ELSE` a statement may begin, but in a `CASE` expression it is the value of a
branch that stands there, often a function call. Of the words that open a block in such a place,
two are names of functions as well. An `IF` is told from the statement by the keyword that comes
first behind it. A `REPEAT` is not: it opens a block which takes the `END` of the expression, and
the procedure is no longer kept whole.
-/

namespace SqlBoundary

open Text Lexeme
open BlockGrammar (branchKeywords)

/-- Digits, and perhaps decimal points. -/
structure Numeral (cs : List Char) : Prop where
  digits : ∀ c ∈ cs, c.isDigit = true ∨ c = '.'
  nonempty : cs ≠ []

/-- An argument of a function, with blanks around it. -/
structure Argument where
  before : List Char
  text : List Char
  behind : List Char
  blank : ∀ c ∈ before ++ behind, isBlank c = true
  form : (Identifier text ∧ String.ofList (upper text) ∉ ["BEGIN", "CASE", "END"]) ∨ Numeral text

def Argument.spelled (a : Argument) : List Char := a.before ++ (a.text ++ a.behind)

/-- The arguments with commas between them. -/
def spelledArguments : List Argument → List Char
  | [] => []
  | [a] => a.spelled
  | a :: b :: more => a.spelled ++ ',' :: spelledArguments (b :: more)

/-- The call of a function that is not named like a part of the expression or a loop. -/
structure FunctionCall where
  name : List Char
  identifier : Identifier name
  free : String.ofList (upper name) ∉
    ["BEGIN", "CASE", "END", "WHEN", "THEN", "ELSE", "LOOP", "WHILE"]
  args : List Argument

namespace FunctionCall

def text (f : FunctionCall) : List Char := f.name ++ '(' :: (spelledArguments f.args ++ [')'])

/-- Whether the function is named like the loop. -/
def isRepeat (f : FunctionCall) : Bool := String.ofList (upper f.name) == "REPEAT"

end FunctionCall

/-- A `CASE` expression whose branches are calls. -/
structure CaseExpression where
  first : FunctionCall
  more : List FunctionCall
  other : Option FunctionCall

/-- The rest of the expression, from its next branch on. -/
def spelledBranches (other : Option FunctionCall) : List FunctionCall → List Char
  | [] => (other.map fun f => " ELSE ".toList ++ f.text).getD [] ++ " END".toList
  | f :: more => " WHEN a THEN ".toList ++ (f.text ++ spelledBranches other more)

namespace CaseExpression

def text (e : CaseExpression) : List Char :=
  "CASE".toList ++ spelledBranches e.other (e.first :: e.more)

/-- All functions that are called. -/
def calls (e : CaseExpression) : List FunctionCall := e.first :: e.more ++ e.other.toList

/-- A procedure that selects the expression into a variable. -/
def procedure (e : CaseExpression) : List Char :=
  "CREATE PROCEDURE p() BEGIN SELECT ".toList ++ (e.text ++ " INTO v; END".toList)

end CaseExpression

section Calls

open Session

variable {blocks : List String} {cs rest : List Char} {c : Char} {n : Mode}

/-- The words that such a procedure is made of, and its names. -/
theorem identifier_of_mem : ∀ w ∈ ["CREATE", "PROCEDURE", "p", "BEGIN", "SELECT", "CASE", "WHEN",
    "a", "THEN", "ELSE", "INTO", "v"], Identifier w.toList := by
  decide +kernel

/-- The signs between them. -/
theorem sign_of_mem : ∀ c ∈ ['(', ')', ',', ';'],
    Sign c ∧ Dialect.mysql.isWordChar c = false := by
  decide +kernel

theorem sign_of_digit (h : c.isDigit = true ∨ c = '.') : Sign c ∧ c ≠ ';' ∧ c ≠ '(' ∧ c ≠ ')' := by
  have all : ∀ n < 128, ((Char.ofNat n).isDigit = true ∨ Char.ofNat n = '.') →
      Sign (.ofNat n) ∧ Char.ofNat n ≠ ';' ∧ Char.ofNat n ≠ '(' ∧ Char.ofNat n ≠ ')' := by
    decide +kernel
  have low : c.toNat < 128 := by
    rcases h with digit | rfl
    · simp only [Char.isDigit, Bool.and_eq_true, decide_eq_true_eq] at digit
      exact Nat.lt_of_le_of_lt (UInt32.le_iff_toNat_le.mp digit.2) (by decide)
    · decide
  have here := all c.toNat low
  rw [Char.ofNat_toNat] at here
  exact here h

/-- Where no statement may begin, control flow opens nothing. -/
theorem opens_of_idle {w : Word} {ctx : Context} (idle : w.clauseStart = false)
    (other : w.text ∉ ["BEGIN", "CASE"]) : BlockGrammar.mysql.opens w ctx = false := by
  simp only [List.mem_cons, List.not_mem_nil, or_false, not_or] at other
  simp [BlockGrammar.opens, BlockGrammar.opensCommon, BlockGrammar.opensControlFlow, idle, other]

theorem goes_numeral {digits : List Char} (numeral : ∀ c ∈ digits, c.isDigit = true ∨ c = '.')
    (later : Goes rest ⟨blocks, 1, false, false⟩ cs n) :
    Goes (digits ++ rest) ⟨blocks, 1, false, false⟩ cs n := by
  induction digits with
  | nil => exact later
  | cons c digits ih =>
    obtain ⟨known, semicolon, left, right⟩ := sign_of_digit (numeral c List.mem_cons_self)
    refine .sign known (Or.inl semicolon) ?_
    have level : parensAfter 1 c = 1 := parensAfter_other left right
    rw [level, beq_eq_false_iff_ne.mpr semicolon]
    exact ih fun x mem => numeral x (List.mem_cons_of_mem c mem)

theorem goes_argument (a : Argument) (separator : c = ',' ∨ c = ')')
    (later : Goes rest ⟨blocks, if c = ',' then 1 else 0, false, false⟩ cs n) :
    Goes (a.spelled ++ c :: rest) ⟨blocks, 1, false, false⟩ cs n := by
  obtain ⟨sign, other⟩ := sign_of_mem c (by rcases separator with rfl | rfl <;> decide)
  have semicolon : c ≠ ';' := by rcases separator with rfl | rfl <;> decide
  have closes : ∀ clause, Goes (a.behind ++ c :: rest) ⟨blocks, 1, clause, false⟩ cs n := by
    intro clause
    refine .blanks (fun x mem => a.blank x (List.mem_append_right _ mem)) ?_
    refine .sign sign (Or.inl semicolon) ?_
    have level : parensAfter 1 c = if c = ',' then 1 else 0 := by
      rcases separator with rfl | rfl <;> rfl
    rw [level, beq_eq_false_iff_ne.mpr semicolon]
    exact later
  rw [Argument.spelled, List.append_assoc, List.append_assoc]
  refine .blanks (fun x mem => a.blank x (List.mem_append_left _ mem)) ?_
  rcases a.form with ⟨identifier, unnamed⟩ | numeral
  · have stops : StopsWord (a.behind ++ c :: rest) := by
      intro x head
      cases split : a.behind with
      | nil =>
        rw [split] at head
        cases head
        exact other
      | cons y behind =>
        rw [split] at head
        cases head
        have blank := a.blank x (List.mem_append_right _ (split ▸ List.mem_cons_self))
        rw [Bool.eq_false_iff]
        intro letter
        rw [Dialect.isBlank_of_isWordChar letter] at blank
        cases blank
    have plain : String.ofList (upper a.text) ∉ ["BEGIN", "CASE"] := by
      simp only [List.mem_cons, List.not_mem_nil, or_false, not_or] at unnamed ⊢
      exact ⟨unnamed.1, unnamed.2.1⟩
    have unended : String.ofList (upper a.text) ≠ "END" := by
      simp only [List.mem_cons, List.not_mem_nil, or_false, not_or] at unnamed
      exact unnamed.2.2
    refine .word identifier stops rfl unended false ?_ (closes _)
    intro w ctx asked
    exact opens_of_idle asked.clause (asked.text ▸ plain)
  · exact goes_numeral numeral.digits (closes false)

theorem goes_arguments (args : List Argument)
    (later : Goes rest ⟨blocks, 0, false, false⟩ cs n) :
    Goes (spelledArguments args ++ ')' :: rest) ⟨blocks, 1, false, false⟩ cs n := by
  induction args with
  | nil =>
    refine .sign (sign_of_mem ')' (by decide)).1 (Or.inl (by decide)) ?_
    rw [parensAfter_last]
    exact later
  | cons a args ih =>
    cases args with
    | nil => exact goes_argument a (Or.inr rfl) later
    | cons b args =>
      rw [spelledArguments, List.append_assoc]
      exact goes_argument a (Or.inl rfl) ih

/-- The blocks that a call opens. -/
def FunctionCall.opened (f : FunctionCall) : List String := if f.isRepeat then ["REPEAT"] else []

theorem goes_call (f : FunctionCall) (inside : blocks ≠ [])
    (guarded : nextKeyword? ('(' :: (spelledArguments f.args ++ ')' :: rest)) branchKeywords ≠
      some "THEN")
    (later : Goes rest ⟨f.opened ++ blocks, 0, false, false⟩ cs n) :
    Goes (f.text ++ rest) ⟨blocks, 0, true, false⟩ cs n := by
  have free := f.free
  simp only [List.mem_cons, List.not_mem_nil, or_false, not_or] at free
  obtain ⟨begin_, case_, end_, -, -, -, loop, while_⟩ := free
  rw [FunctionCall.text, List.append_assoc, List.cons_append, List.append_assoc,
    List.singleton_append]
  have stops : StopsWord ('(' :: (spelledArguments f.args ++ ')' :: rest)) := by
    rintro x ⟨⟩
    exact (sign_of_mem '(' (by decide)).2
  refine .word f.identifier stops rfl end_ f.isRepeat ?_ ?_
  · intro w ctx asked
    have depth := Context.inside asked.blocks inside
    have first : w.followsEnd = false := asked.ended
    cases loops : f.isRepeat with
    | true =>
      have text : w.text = "REPEAT" := asked.text.trans (beq_iff_eq.mp loops)
      simp [BlockGrammar.opens, BlockGrammar.opensControlFlow, text, depth, asked.clause, first]
    | false =>
      have repeat_ := beq_eq_false_iff_ne.mp loops
      by_cases condition : String.ofList (upper f.name) = "IF"
      · have text : w.text = "IF" := asked.text.trans condition
        have call : (nextKeyword? w.ahead ["THEN", "WHEN", "ELSE", "END"] == some "THEN") = false :=
          beq_eq_false_iff_ne.mpr (asked.ahead ▸ guarded)
        simp [BlockGrammar.opens, BlockGrammar.opensCommon, BlockGrammar.opensControlFlow, text,
          call]
      · refine BlockGrammar.opens_other ?_
        rw [asked.text]
        simp [BlockGrammar.openers, begin_, case_, loop, while_, condition, repeat_]
  · refine .sign (sign_of_mem '(' (by decide)).1 (Or.inl (by decide)) (goes_arguments f.args ?_)
    have opened : (if f.isRepeat = true then String.ofList (upper f.name) :: blocks else blocks) =
        f.opened ++ blocks := by
      rw [FunctionCall.opened]
      split
      · next loops => rw [beq_iff_eq.mp loops, List.singleton_append]
      · rw [List.nil_append]
    rw [← opened] at later
    exact later

variable {keywords : List String} {depth : Nat}

theorem Argument.unmarked (a : Argument) : ∀ c ∈ a.spelled, c ∉ searchMarks := by
  intro c mem
  have blanks : ∀ x, isBlank x = true → x ∉ searchMarks := by
    intro x blank mem
    have solid : ∀ x ∈ searchMarks, isBlank x = false := by decide
    rw [solid x mem] at blank
    cases blank
  rcases List.mem_append.mp mem with mem | mem
  · exact blanks c (a.blank c (List.mem_append_left _ mem))
  rcases List.mem_append.mp mem with mem | mem
  · rcases a.form with ⟨identifier, -⟩ | numeral
    · intro marked
      have apart : ∀ x ∈ searchMarks, Dialect.mysql.isWordChar x = false := by decide +kernel
      have letter := identifier.inside c mem
      rw [apart c marked] at letter
      cases letter
    · intro marked
      have apart : ∀ x ∈ searchMarks, ¬ (x.isDigit = true ∨ x = '.') := by decide
      exact apart c marked (numeral.digits c mem)
  · exact blanks c (a.blank c (List.mem_append_right _ mem))

theorem spelledArguments_unmarked (args : List Argument) :
    ∀ c ∈ spelledArguments args, c ∉ searchMarks := by
  induction args with
  | nil => exact List.forall_mem_nil _
  | cons a args ih =>
    cases args with
    | nil => exact a.unmarked
    | cons b args =>
      intro c mem
      rw [spelledArguments, List.mem_append, List.mem_cons] at mem
      rcases mem with mem | rfl | mem
      · exact a.unmarked c mem
      · decide
      · exact ih c mem

/-- The search goes on behind the arguments of a call. -/
theorem nextKeyword?_call (args : List Argument) :
    nextKeyword? ('(' :: (spelledArguments args ++ ')' :: rest)) keywords =
      nextKeyword? rest keywords := by
  have opening : nextKeyword? ('(' :: (spelledArguments args ++ ')' :: rest)) keywords =
      seekKeyword keywords 0 1 (spelledArguments args ++ ')' :: rest) := by
    simp [nextKeyword?, seekKeyword]
  rw [opening, seekKeyword_inside (spelledArguments_unmarked args)]
  simp [nextKeyword?, seekKeyword]

theorem whenText (cs : List Char) : " WHEN a THEN ".toList ++ cs = ' ' :: ("WHEN".toList ++
    ' ' :: ("a".toList ++ ' ' :: ("THEN".toList ++ ' ' :: cs))) := by
  have split : " WHEN a THEN ".toList = ' ' :: ("WHEN".toList ++ ' ' :: ("a".toList ++
      ' ' :: ("THEN".toList ++ [' ']))) := by decide
  simp only [split, List.cons_append, List.append_assoc, List.nil_append]

theorem elseText (cs : List Char) :
    " ELSE ".toList ++ cs = ' ' :: ("ELSE".toList ++ ' ' :: cs) := by
  have split : " ELSE ".toList = ' ' :: ("ELSE".toList ++ [' ']) := by decide
  simp only [split, List.cons_append, List.append_assoc, List.nil_append]

theorem endText (cs : List Char) : " END".toList ++ cs = ' ' :: ("END".toList ++ cs) := by
  have split : " END".toList = ' ' :: "END".toList := by decide
  rw [split, List.cons_append]

variable {other : Option FunctionCall}

theorem spelledBranches_nil : spelledBranches other [] =
    (other.map fun f => " ELSE ".toList ++ f.text).getD [] ++ " END".toList := rfl

theorem spelledBranches_cons (f : FunctionCall) (more : List FunctionCall) :
    spelledBranches other (f :: more) =
      " WHEN a THEN ".toList ++ (f.text ++ spelledBranches other more) := rfl

/-- What follows a branch is not `THEN`. -/
theorem nextKeyword?_branches (rest : List Char) (other : Option FunctionCall)
    (more : List FunctionCall) :
    nextKeyword? (spelledBranches other more ++ ' ' :: rest) branchKeywords ≠ some "THEN" := by
  have found : ∀ (word : String) (cs : List Char), Spelled word.toList word →
      word ∈ branchKeywords → nextKeyword? (' ' :: (word.toList ++ ' ' :: cs)) branchKeywords =
        some word := by
    intro word cs spelled mem
    have ends : EndsWord (' ' :: cs) := by
      rintro c ⟨⟩
      exact Or.inl (by decide)
    have blank : ∀ c ∈ [' '], isBlank c = true := by decide
    have skip : nextKeyword? ([' '] ++ (word.toList ++ ' ' :: cs)) branchKeywords =
        nextKeyword? (word.toList ++ ' ' :: cs) branchKeywords := seekKeyword_blanks blank
    refine skip.trans ((seekKeyword_word spelled ends (by decide)).trans ?_)
    rw [if_pos ⟨rfl, mem⟩]
  cases more with
  | cons f more =>
    rw [spelledBranches_cons, List.append_assoc, whenText, found "WHEN" _ (by decide) (by decide)]
    decide
  | nil =>
    cases other with
    | none =>
      rw [spelledBranches_nil, Option.map_none, Option.getD_none, List.nil_append, endText,
        found "END" _ (by decide) (by decide)]
      decide
    | some f =>
      rw [spelledBranches_nil, Option.map_some, Option.getD_some, List.append_assoc,
        List.append_assoc, elseText, found "ELSE" _ (by decide) (by decide)]
      decide

/-- The `END` of the expression closes what is innermost there. -/
theorem goes_end {clause ended : Bool} (inside : blocks ≠ [])
    (later : Goes (' ' :: rest) ⟨blocks.tail, 0, false, true⟩ cs n) :
    Goes (" END".toList ++ ' ' :: rest) ⟨blocks, 0, clause, ended⟩ cs n := by
  obtain ⟨initiator, outer, rfl⟩ := List.exists_cons_of_ne_nil inside
  rw [endText]
  exact .space (.close rfl (Goes.stops_space rest) later)

/-- The blocks that the calls open. -/
def openedBy (calls : List FunctionCall) : List String :=
  List.replicate (calls.countP (·.isRepeat)) "REPEAT"

theorem openedBy_cons (f : FunctionCall) (calls : List FunctionCall) :
    openedBy (f :: calls) ++ blocks = openedBy calls ++ (f.opened ++ blocks) := by
  rw [openedBy, openedBy, List.countP_cons, FunctionCall.opened]
  split
  · rw [List.replicate_succ', List.append_assoc]
  · rfl

theorem goes_branches (other : Option FunctionCall) (more : List FunctionCall) {clause : Bool}
    (inside : blocks ≠ [])
    (later : Goes (' ' :: rest) ⟨(openedBy (more ++ other.toList) ++ blocks).tail, 0, false, true⟩
      cs n) :
    Goes (spelledBranches other more ++ ' ' :: rest) ⟨blocks, 0, clause, false⟩ cs n := by
  induction more generalizing blocks clause with
  | cons f more ih =>
    rw [List.cons_append, openedBy_cons] at later
    have nested : f.opened ++ blocks ≠ [] := List.append_ne_nil_of_right_ne_nil _ inside
    rw [spelledBranches_cons, List.append_assoc, whenText, List.append_assoc]
    refine .space <|
      .spaced "WHEN" "WHEN" (identifier_of_mem _ (by decide)) (by decide) (by decide) <|
      .spaced "a" "A" (identifier_of_mem _ (by decide)) (by decide) (by decide) <|
      .spaced "THEN" "THEN" (identifier_of_mem _ (by decide)) (by decide) (by decide) ?_
    refine goes_call f inside ?_ (ih nested later)
    rw [nextKeyword?_call]
    exact nextKeyword?_branches _ other more
  | nil =>
    cases other with
    | none =>
      rw [spelledBranches_nil, Option.map_none, Option.getD_none, List.nil_append]
      exact goes_end inside later
    | some f =>
      rw [List.nil_append, Option.toList_some, openedBy_cons] at later
      have nested : f.opened ++ blocks ≠ [] := List.append_ne_nil_of_right_ne_nil _ inside
      rw [spelledBranches_nil, Option.map_some, Option.getD_some, List.append_assoc,
        List.append_assoc, elseText]
      refine .space <|
        .spaced "ELSE" "ELSE" (identifier_of_mem _ (by decide)) (by decide) (by decide) ?_
      refine goes_call f inside ?_ (goes_end nested later)
      have guarded := nextKeyword?_branches rest none []
      rw [spelledBranches_nil, Option.map_none, Option.getD_none, List.nil_append] at guarded
      rw [nextKeyword?_call]
      exact guarded

/-- What stands behind the expression. -/
def intoText : List Char :=
  "INTO".toList ++ ' ' :: ("v".toList ++ ';' :: ' ' :: ("END".toList ++ [';']))

theorem procedureText (e : CaseExpression) : e.procedure ++ [';'] =
    "CREATE".toList ++ ' ' :: ("PROCEDURE".toList ++ ' ' :: ("p".toList ++ '(' :: ')' ::
      ' ' :: ("BEGIN".toList ++ ' ' :: ("SELECT".toList ++ ' ' :: ("CASE".toList ++
        (spelledBranches e.other (e.first :: e.more) ++ ' ' :: intoText)))))) := by
  have front : "CREATE PROCEDURE p() BEGIN SELECT ".toList =
      "CREATE".toList ++ ' ' :: ("PROCEDURE".toList ++ ' ' :: ("p".toList ++ '(' :: ')' ::
        ' ' :: ("BEGIN".toList ++ ' ' :: ("SELECT".toList ++ [' '])))) := by decide
  have back : " INTO v; END".toList ++ [';'] = ' ' :: intoText := by decide
  have parts : e.procedure ++ [';'] = ("CREATE PROCEDURE p() BEGIN SELECT ".toList ++
      (("CASE".toList ++ spelledBranches e.other (e.first :: e.more)) ++ " INTO v; END".toList)) ++
        [';'] := rfl
  rw [parts, List.append_assoc, List.append_assoc, List.append_assoc, back, front]
  simp only [List.append_assoc, List.cons_append, List.nil_append]

/-- The first word of the script. -/
theorem before_create (rest : List Char) : ∃ t e,
    Passes (.ofScript .mysql .semicolon (String.ofList ("CREATE".toList ++ ' ' :: rest))) none t
      (some e) ∧ e.start = .start ("CREATE".toList ++ ' ' :: rest) ∧
      Before (' ' :: rest) ⟨[], 0, false, false⟩ t e := by
  let s := Session.ofScript .mysql .semicolon (String.ofList ("CREATE".toList ++ ' ' :: rest))
  let u : Session := { s with context := { s.context with kind := .mysql } }
  have ahead : s.cursor.ahead = "CREATE".toList ++ ' ' :: rest := String.toList_ofList
  have spelled : String.ofList (upper "CREATE".toList) = "CREATE" := by decide
  have known : Dialect.mysql.kind ≠ .unknown := by decide
  have begun : s.begin none = .ok (u, .begin s.cursor) :=
    begin_eq_ok_iff.mpr (Or.inr ⟨rfl, known, rfl, rfl⟩)
  have other : "CREATE" ∉ Dialect.mysql.blocks.openers := by decide
  have closed : ∀ next, Dialect.mysql.blocks.opens
      ((u.skip "CREATE".toList.length).asWord (.begin s.cursor) "CREATE" next) u.context = false :=
    fun next => BlockGrammar.opens_other other
  have taken : (u.skip "CREATE".toList.length).takeWord (.begin s.cursor)
      (String.ofList (upper "CREATE".toList)) = .more (u.skip "CREATE".toList.length)
        (some ((Draft.begin s.cursor).afterWord "CREATE")) := by
    have same : (u.skip "CREATE".toList.length).dialect = .mysql := rfl
    have asked : (Draft.begin s.cursor).asks Dialect.mysql.blocks "CREATE" = none := rfl
    rw [spelled]
    simp only [takeWord, openBlock_eq, classify_eq, skip_context, same, closed, asked,
      Option.getD_none]
    rfl
  have plainly : s.Plainly := ⟨rfl, rfl⟩
  have step := plainly.word (identifier_of_mem "CREATE" (by decide)) ahead
    (Goes.stops_space rest) begun rfl (Or.inr (by decide)) taken
  refine ⟨_, _, .step step (.refl _ _), ?_, ?_, ⟨rfl, rfl⟩, rfl, rfl, rfl, rfl, rfl, ?_⟩
  · change Cursor.start (String.ofList ("CREATE".toList ++ ' ' :: rest)).toList = _
    rw [String.toList_ofList]
  · change (s.cursor.skip "CREATE".toList.length).ahead = ' ' :: rest
    rw [Cursor.skip_ahead, ahead, List.drop_left]
  · exact List.cons_ne_nil _ _

theorem opens_begin_select {w : Word} {ctx : Context} {m : Mode}
    (asked : Asked "BEGIN" (' ' :: ("SELECT".toList ++ ' ' :: rest)) m w ctx) :
    BlockGrammar.mysql.opens w ctx = true := by
  have identifier := identifier_of_mem "SELECT" (by decide)
  have blank : ∀ c ∈ [' '], isBlank c = true := by decide
  have next : w.next = some (String.ofList (upper "SELECT".toList)) :=
    asked.next.trans (identifier.tokenAhead? asked.kind blank (Goes.stops_space rest))
  exact BlockGrammar.opens_begin asked.text next (by decide)

/-- Behind the expression the procedure is closed. -/
theorem goes_into {initiator : String} {outer : List String} {ended : Bool} :
    Goes (' ' :: intoText) ⟨initiator :: outer, 0, false, ended⟩ [';']
      ⟨outer, 0, false, true⟩ := by
  have stops : StopsWord (';' :: ' ' :: ("END".toList ++ [';'])) := by
    rintro c ⟨⟩
    exact (sign_of_mem _ (by decide)).2
  have stops' : StopsWord [';'] := by
    rintro c ⟨⟩
    exact (sign_of_mem _ (by decide)).2
  refine .space <|
    .spaced "INTO" "INTO" (identifier_of_mem _ (by decide)) (by decide) (by decide) <|
    .plain "v" "V" (identifier_of_mem _ (by decide)) stops (by decide) (by decide) <|
    .sign (sign_of_mem ';' (by decide)).1 (Or.inr (List.cons_ne_nil _ _)) <| .space <|
    .close rfl stops' (.refl _ _)

end Calls

namespace CaseExpression

open Session

/-- The blocks still open before the last semicolon. -/
def left (e : CaseExpression) : List String := (openedBy e.calls ++ ["CASE", "BEGIN"]).drop 2

theorem goes_procedure (e : CaseExpression) :
    ∃ t x, Passes (.ofScript .mysql .semicolon (String.ofList (e.procedure ++ [';']))) none t
      (some x) ∧ x.start = .start (e.procedure ++ [';']) ∧
      Before [';'] ⟨e.left, 0, false, true⟩ t x := by
  obtain ⟨initiator, split⟩ : ∃ initiator,
      (openedBy e.calls ++ ["CASE", "BEGIN"]).tail = initiator :: e.left := by
    rw [left]
    rcases openedBy e.calls with _ | ⟨x, _ | ⟨y, more⟩⟩
    · exact ⟨_, rfl⟩
    · exact ⟨_, rfl⟩
    · exact ⟨_, rfl⟩
  rw [procedureText]
  obtain ⟨t, x, passes, start, before⟩ := before_create _
  have stops : StopsWord ('(' :: ')' :: ' ' :: ("BEGIN".toList ++ ' ' :: ("SELECT".toList ++
      ' ' :: ("CASE".toList ++ (spelledBranches e.other (e.first :: e.more) ++
        ' ' :: intoText))))) := by
    rintro c ⟨⟩
    exact (sign_of_mem _ (by decide)).2
  have stops' : StopsWord (spelledBranches e.other (e.first :: e.more) ++ ' ' :: intoText) := by
    rw [spelledBranches_cons, List.append_assoc, whenText]
    exact Goes.stops_space _
  have goes : Goes (' ' :: ("PROCEDURE".toList ++ ' ' :: ("p".toList ++ '(' :: ')' ::
      ' ' :: ("BEGIN".toList ++ ' ' :: ("SELECT".toList ++ ' ' :: ("CASE".toList ++
        (spelledBranches e.other (e.first :: e.more) ++ ' ' :: intoText)))))))
      ⟨[], 0, false, false⟩ [';'] ⟨e.left, 0, false, true⟩ := by
    refine .space <|
      .spaced "PROCEDURE" "PROCEDURE" (identifier_of_mem _ (by decide)) (by decide) (by decide) <|
      .plain "p" "P" (identifier_of_mem _ (by decide)) stops (by decide) (by decide) <|
      .sign (sign_of_mem '(' (by decide)).1 (Or.inl (by decide)) <|
      .sign (sign_of_mem ')' (by decide)).1 (Or.inl (by decide)) <| .space <|
      .word (identifier_of_mem "BEGIN" (by decide)) (Goes.stops_space _) rfl (by decide) true
        (fun _ _ asked => opens_begin_select asked) <|
      .space <|
      .spaced "SELECT" "SELECT" (identifier_of_mem _ (by decide)) (by decide) (by decide) <|
      .word (identifier_of_mem "CASE" (by decide)) stops' rfl (by decide) true
        (fun _ _ asked => BlockGrammar.opens_case asked.text asked.ended) <|
      goes_branches e.other (e.first :: e.more) (List.cons_ne_nil _ _) ?_
    change Goes (' ' :: intoText) ⟨(openedBy e.calls ++ ["CASE", "BEGIN"]).tail, 0, false, true⟩ _ _
    rw [split]
    exact goes_into
  obtain ⟨u, y, passes', start', last⟩ := goes t x before
  exact ⟨u, y, passes_trans passes passes', start'.trans start, last⟩

theorem left_eq_nil_iff (e : CaseExpression) :
    e.left = [] ↔ ∀ f ∈ e.calls, f.isRepeat = false := by
  have count : e.left = [] ↔ e.calls.countP (·.isRepeat) = 0 := by
    simp [left, openedBy, List.drop_eq_nil_iff]
  rw [count, List.countP_eq_zero]
  simp

theorem trimEnd_procedure (e : CaseExpression) : trimEnd e.procedure = e.procedure := by
  have solid : EndsSolid e.procedure := by
    have last : EndsSolid " INTO v; END".toList := ⟨" INTO v; EN".toList, 'D', by decide, by decide⟩
    exact (last.append e.text).append _
  exact trimEnd_of_solid solid

/-- A procedure that selects such an expression is kept whole unless a call is named `REPEAT`. Then
that name opens a block, which takes the `END` of the expression, and others are left open. -/
theorem split_procedure (e : CaseExpression) :
    split .mysql (String.ofList (e.procedure ++ [';'])) =
      if e.calls.any (·.isRepeat) then .error (.unclosedBlock (e.left.headD "") 1)
      else .ok [⟨1, 0, byteSize e.procedure, String.ofList e.procedure, .semicolon⟩] := by
  obtain ⟨t, x, passes, start, before⟩ := goes_procedure e
  have script : (String.ofList (e.procedure ++ [';'])).toList = e.procedure ++ [';'] :=
    String.toList_ofList
  have ends := e.left_eq_nil_iff
  cases loops : e.calls.any (·.isRepeat) with
  | false =>
    have open_ : e.left = [] := ends.mpr (by simpa using loops)
    have alone := (splitFrom_of_semicolon passes (start.trans (congrArg _ script.symm)) script
      before.ahead (before.blocks.trans open_) before.parens before.plainly.delimiter).1
    rw [trimEnd_procedure] at alone
    exact alone
  | true =>
    have inside : e.left ≠ [] := by
      intro none
      obtain ⟨f, mem, loop⟩ := List.any_eq_true.mp loops
      rw [ends.mp none f mem] at loop
      cases loop
    have known := (sign_of_mem ';' (by decide)).1
    obtain ⟨u, y, last, start', ended⟩ :=
      Goes.sign known (Or.inr inside) (.refl [] _) t x before
    have blocks : u.context.blocks = e.left := ended.blocks
    have failed := (pass_of_end ended.ahead).trans
      (finish_inside (by rw [blocks]; exact inside) (some y))
    have line : ((some y).map (·.start.line)).getD 0 = 1 := by
      rw [Option.map_some, Option.getD_some, start', start]
      rfl
    rw [line, Context.innermost, blocks] at failed
    have answer := (onward_of_passes (classified_none _) (passes_trans passes last)).trans
      (onward_of_failed failed)
    exact (onward_none rfl).symm.trans answer

/-- The `IF` of the first branch is a function, as the `ELSE` behind its arguments tells. -/
theorem split_procedure_if :
    let text :=
      "CREATE PROCEDURE p() BEGIN SELECT CASE WHEN a THEN IF(b, 1) ELSE f() END INTO v; END"
    split .mysql (String.ofList (text.toList ++ [';'])) = .ok [⟨1, 0, 84, text, .semicolon⟩] := by
  intro text
  let b : Argument := ⟨[], ['b'], [], by decide, Or.inl (by decide +kernel)⟩
  let one : Argument := ⟨[' '], ['1'], [], by decide, Or.inr ⟨by decide, by decide⟩⟩
  let choice : FunctionCall := ⟨['I', 'F'], by decide +kernel, by decide +kernel, [b, one]⟩
  let f : FunctionCall := ⟨['f'], by decide +kernel, by decide +kernel, []⟩
  let e : CaseExpression := ⟨choice, [], some f⟩
  have written : e.procedure = text.toList := by decide +kernel
  have unlooped : e.calls.any (·.isRepeat) = false := by decide +kernel
  have size : text.utf8ByteSize = 84 := by decide +kernel
  have whole := split_procedure e
  rw [unlooped, written, byteSize_eq_utf8ByteSize, String.ofList_toList, size] at whole
  exact whole

/-- A `REPEAT` in the same place opens a block. -/
theorem split_procedure_repeat :
    ∃ e : CaseExpression, String.ofList (e.procedure ++ [';']) =
        "CREATE PROCEDURE p() BEGIN SELECT " ++
          "CASE WHEN a THEN REPEAT(x, 3) ELSE f(1) END INTO v; END;" ∧
      split .mysql (String.ofList (e.procedure ++ [';'])) = .error (.unclosedBlock "BEGIN" 1) := by
  let x : Argument := ⟨[], ['x'], [], by decide, Or.inl (by decide +kernel)⟩
  let three : Argument := ⟨[' '], ['3'], [], by decide, Or.inr ⟨by decide, by decide⟩⟩
  let one : Argument := ⟨[], ['1'], [], by decide, Or.inr ⟨by decide, by decide⟩⟩
  let again : FunctionCall := ⟨"REPEAT".toList, by decide +kernel, by decide +kernel, [x, three]⟩
  let f : FunctionCall := ⟨['f'], by decide +kernel, by decide +kernel, [one]⟩
  refine ⟨⟨again, [], some f⟩, ?_, ?_⟩
  · decide +kernel
  · decide +kernel

end CaseExpression

end SqlBoundary
