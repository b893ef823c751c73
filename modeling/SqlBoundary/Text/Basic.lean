import SqlBoundary.Text.Alphabetic
import SqlBoundary.Text.Blank
import SqlBoundary.Text.Numeric

/-!
# Characters, lines and searching

Texts are lists of characters here. The classes are the Unicode properties held in
the tables beside this module. Letter case is ASCII only: a comparison that ignores
case, and upper-casing, leave every other letter alone.
-/

namespace SqlBoundary.Text

/-- Membership in increasing closed ranges; the search ends at the first range above `n`. -/
def inRanges (n : Nat) : List (Nat × Nat) → Bool
  | [] => false
  | (lo, hi) :: rest => Nat.ble lo n && (Nat.ble n hi || inRanges n rest)

def isBlank (c : Char) : Bool := inRanges c.toNat blankRanges

def isAlphabetic (c : Char) : Bool := inRanges c.toNat alphabeticRanges

def isNumeric (c : Char) : Bool := inRanges c.toNat numericRanges

def isAlphanumeric (c : Char) : Bool := isAlphabetic c || isNumeric c

def upper (cs : List Char) : List Char := cs.map Char.toUpper

def lower (cs : List Char) : List Char := cs.map Char.toLower

def sameIgnoringCase (a b : List Char) : Bool := lower a == lower b

def trimStart (cs : List Char) : List Char := cs.dropWhile isBlank

def trimEnd (cs : List Char) : List Char := (cs.reverse.dropWhile isBlank).reverse

def trim (cs : List Char) : List Char := trimEnd (trimStart cs)

/-- The text up to the next line feed, which is not part of it. -/
def currentLine (cs : List Char) : List Char := cs.takeWhile (· != '\n')

/-- Characters left on the current line. -/
def lineLength (cs : List Char) : Nat := (currentLine cs).length

/-- Bytes of the UTF-8 form. -/
def byteSize (cs : List Char) : Nat := cs.foldr (fun c n => c.utf8Size + n) 0

@[simp] theorem byteSize_nil : byteSize [] = 0 := rfl

@[simp] theorem byteSize_cons (c : Char) (rest : List Char) :
    byteSize (c :: rest) = c.utf8Size + byteSize rest := rfl

theorem byteSize_append (a b : List Char) : byteSize (a ++ b) = byteSize a + byteSize b := by
  induction a with
  | nil => simp
  | cons c rest ih => simp [ih, Nat.add_assoc]

theorem byteSize_eq_utf8ByteSize (cs : List Char) :
    byteSize cs = (String.ofList cs).utf8ByteSize := by
  induction cs with
  | nil => rfl
  | cons c rest ih =>
    have split : String.ofList (c :: rest) = String.singleton c ++ String.ofList rest := by
      rw [String.singleton_eq_ofList, ← String.ofList_append, List.singleton_append]
    rw [split, byteSize_cons, ih, String.utf8ByteSize_append, String.utf8ByteSize_singleton]

/-- The position of the first occurrence of a pattern, counted on from `n`. -/
def positionFrom? (pattern : List Char) (n : Nat) : List Char → Option Nat
  | [] => if pattern.isEmpty then some n else none
  | c :: rest =>
    if pattern.isPrefixOf (c :: rest) then some n else positionFrom? pattern (n + 1) rest

/-- The number of characters before the first occurrence of a pattern. -/
def position? (pattern cs : List Char) : Option Nat := positionFrom? pattern 0 cs

theorem positionFrom?_eq (pattern : List Char) (n : Nat) (cs : List Char) :
    positionFrom? pattern n cs = (position? pattern cs).map (n + ·) := by
  have shift : ∀ (cs : List Char) (n m : Nat),
      positionFrom? pattern (n + m) cs = (positionFrom? pattern m cs).map (n + ·) := by
    intro cs
    induction cs with
    | nil => intro n m; by_cases h : pattern.isEmpty <;> simp [positionFrom?, h]
    | cons c rest ih =>
      intro n m
      by_cases h : pattern.isPrefixOf (c :: rest)
      · simp [positionFrom?, h]
      · simp [positionFrom?, h, Nat.add_assoc, ih n (m + 1)]
  exact shift cs n 0

end SqlBoundary.Text
