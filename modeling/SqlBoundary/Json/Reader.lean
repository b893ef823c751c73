import SqlBoundary.Json.Basic

/-!
# Reading JSON

A text is a document if it follows the grammar of the format from end to end. Fuel is
explicit: each function spends one unit and either reads a character or hands over to one
that does, so that two units a character and two more are enough.
-/

namespace SqlBoundary.Json

def isSpace (c : Char) : Bool := c == ' ' || c == '\n' || c == '\t' || c == '\r'

def skipSpace (cs : List Char) : List Char := cs.dropWhile isSpace

def isNumberChar (c : Char) : Bool :=
  c.isDigit || c == '+' || c == '-' || c == '.' || c == 'e' || c == 'E'

/-- Nothing, or the exponent of a number. -/
def isExponent : List Char → Bool
  | [] => true
  | c :: rest =>
    let digits := if rest.head? == some '+' || rest.head? == some '-' then rest.tail else rest
    (c == 'e' || c == 'E') && !digits.isEmpty && digits.all Char.isDigit

/-- What may follow the whole part of a number. -/
def isFraction : List Char → Bool
  | '.' :: rest =>
    let digits := rest.takeWhile Char.isDigit
    !digits.isEmpty && isExponent (rest.drop digits.length)
  | rest => isExponent rest

/-- The whole part has no zero in front of other digits. -/
def isNumber (cs : List Char) : Bool :=
  let unsigned := if cs.head? == some '-' then cs.tail else cs
  let whole := unsigned.takeWhile Char.isDigit
  (whole == ['0'] || (!whole.isEmpty && whole.head? != some '0')) &&
    isFraction (unsigned.drop whole.length)

/-- The number ahead; it has to make up the whole run of characters that numbers use. -/
def number? (cs : List Char) : Option (Json × List Char) :=
  let spelling := cs.takeWhile isNumberChar
  if isNumber spelling then some (.number spelling, cs.drop spelling.length) else none

mutual

def value? : Nat → List Char → Option (Json × List Char)
  | 0, _ => none
  | fuel + 1, ahead =>
    match skipSpace ahead with
    | '"' :: rest => (Literal.read? rest).map fun (spelling, rest) => (.string spelling, rest)
    | '[' :: rest =>
      match skipSpace rest with
      | ']' :: rest => some (.array [], rest)
      | _ => (items? fuel rest).map fun (items, rest) => (.array items, rest)
    | '{' :: rest =>
      match skipSpace rest with
      | '}' :: rest => some (.object [], rest)
      | _ => (fields? fuel rest).map fun (fields, rest) => (.object fields, rest)
    | 'n' :: 'u' :: 'l' :: 'l' :: rest => some (.null, rest)
    | 't' :: 'r' :: 'u' :: 'e' :: rest => some (.bool true, rest)
    | 'f' :: 'a' :: 'l' :: 's' :: 'e' :: rest => some (.bool false, rest)
    | ahead => number? ahead

/-- Items up to and including the closing bracket. -/
def items? : Nat → List Char → Option (List Json × List Char)
  | 0, _ => none
  | fuel + 1, ahead => do
    let (item, rest) ← value? fuel ahead
    match skipSpace rest with
    | ']' :: rest => some ([item], rest)
    | ',' :: rest => (items? fuel rest).map fun (items, rest) => (item :: items, rest)
    | _ => none

/-- Fields up to and including the closing brace. -/
def fields? : Nat → List Char → Option (List (List Char × Json) × List Char)
  | 0, _ => none
  | fuel + 1, ahead =>
    match skipSpace ahead with
    | '"' :: rest => do
      let (name, rest) ← Literal.read? rest
      match skipSpace rest with
      | ':' :: rest => do
        let (value, rest) ← value? fuel rest
        match skipSpace rest with
        | '}' :: rest => some ([(name, value)], rest)
        | ',' :: rest => (fields? fuel rest).map fun (fields, rest) => ((name, value) :: fields, rest)
        | _ => none
      | _ => none
    | _ => none

end

/-- The document that a text is. -/
def parse? (cs : List Char) : Option Json :=
  match value? (2 * cs.length + 2) cs with
  | some (json, rest) => if (skipSpace rest).isEmpty then some json else none
  | none => none

end SqlBoundary.Json
