import SqlBoundary.Fault
import SqlBoundary.Text.Basic

/-!
# Delimiters

The text that ends a statement. An inline delimiter is found wherever it occurs. One
that stands alone must fill the rest of a line, blanks after it apart, and is then
found in any ASCII case. An empty text is a delimiter too, but never occurs inline.
-/

namespace SqlBoundary

open Text

structure Delimiter where
  text : String
  aloneOnLine : Bool
deriving DecidableEq

namespace Delimiter

def inline (text : String) : Delimiter := ⟨text, false⟩

def alone (text : String) : Delimiter := ⟨text, true⟩

def semicolon : Delimiter := inline ";"

def slash : Delimiter := alone "/"

def go : Delimiter := alone "GO"

instance : Inhabited Delimiter := ⟨semicolon⟩

/-- The delimiter as written after a statement: one that stands alone starts a new line. -/
def display (d : Delimiter) : String := if d.aloneOnLine then "\n" ++ d.text else d.text

/-- Whether the text ahead begins with this inline delimiter. -/
def startsAt (d : Delimiter) (ahead : List Char) : Bool :=
  !d.aloneOnLine && !d.text.toList.isEmpty && d.text.toList.isPrefixOf ahead

/-- Whether the rest of the line ahead, blanks at its end apart, is the delimiter's text. -/
def fillsLine (d : Delimiter) (ahead : List Char) : Bool :=
  sameIgnoringCase (trimEnd (currentLine ahead)) d.text.toList

/-- The delimiter set by a line `DELIMITER text`, or `none` if the line is not such a
directive. A directive without a text is a fault. -/
def ofDirective? (line : List Char) : Except Fault (Option Delimiter) :=
  let line := trim line
  let keyword := line.takeWhile (!isBlank ·)
  if sameIgnoringCase keyword "DELIMITER".toList then
    let text := trim (line.drop keyword.length)
    if text.isEmpty then .error (.emptyDirective (String.ofList line))
    else .ok (some (inline (String.ofList text)))
  else .ok none

end Delimiter

end SqlBoundary
