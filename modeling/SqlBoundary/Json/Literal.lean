/-!
# JSON string literals

The characters between the quotes of a JSON string, as written, and the text they stand
for. Writing escapes quotes, backslashes and the controls below U+0020 and nothing else,
with the short form where there is one. Reading accepts every escape of the format; an
escape of a surrogate stands for a character only together with its other half.

Every text is read back from what is written for it.
-/

namespace SqlBoundary.Json.Literal

/-- Hexadecimal digits in lower case. -/
def hexDigit (n : Nat) : Char :=
  if n < 10 then Char.ofNat (48 + n) else Char.ofNat (87 + n)

/-- The value of a hexadecimal digit in either case. -/
def hexValue? (c : Char) : Option Nat :=
  if c.isDigit then some (c.toNat - 48)
  else if 'a' ≤ c && c ≤ 'f' then some (c.toNat - 87)
  else if 'A' ≤ c && c ≤ 'F' then some (c.toNat - 55)
  else none

/-- The value of four hexadecimal digits. -/
def unit? (a b c d : Char) : Option Nat := do
  return (((← hexValue? a) * 16 + (← hexValue? b)) * 16 + (← hexValue? c)) * 16 + (← hexValue? d)

def encodeChar (c : Char) : List Char :=
  if c == '"' then ['\\', '"']
  else if c == '\\' then ['\\', '\\']
  else if c == '\x08' then ['\\', 'b']
  else if c == '\x0c' then ['\\', 'f']
  else if c == '\n' then ['\\', 'n']
  else if c == '\r' then ['\\', 'r']
  else if c == '\t' then ['\\', 't']
  else if c.toNat < 32 then ['\\', 'u', '0', '0', hexDigit (c.toNat / 16), hexDigit (c.toNat % 16)]
  else [c]

def encode (cs : List Char) : List Char := cs.flatMap encodeChar

/-- The character of a two-character escape. -/
def escaped? (c : Char) : Option Char :=
  if c == '"' || c == '\\' || c == '/' then some c
  else if c == 'b' then some '\x08'
  else if c == 'f' then some '\x0c'
  else if c == 'n' then some '\n'
  else if c == 'r' then some '\r'
  else if c == 't' then some '\t'
  else none

/-- Splits a text after its opening quote at the closing one. Escapes have to be well
formed, but may be of single surrogates. -/
def read? : List Char → Option (List Char × List Char)
  | [] => none
  | '"' :: rest => some ([], rest)
  | '\\' :: 'u' :: a :: b :: c :: d :: rest =>
    match unit? a b c d, read? rest with
    | some _, some (inner, rest) => some ('\\' :: 'u' :: a :: b :: c :: d :: inner, rest)
    | _, _ => none
  | '\\' :: c :: rest =>
    match escaped? c, read? rest with
    | some _, some (inner, rest) => some ('\\' :: c :: inner, rest)
    | _, _ => none
  | c :: rest =>
    if c == '\\' || c.toNat < 32 then none
    else match read? rest with
      | some (inner, rest) => some (c :: inner, rest)
      | none => none

def isHighHalf (n : Nat) : Bool := 0xD800 ≤ n && n < 0xDC00

def isLowHalf (n : Nat) : Bool := 0xDC00 ≤ n && n < 0xE000

/-- The text that a literal stands for, if it is well formed. -/
def decode? : List Char → Option (List Char)
  | [] => some []
  | '\\' :: 'u' :: a :: b :: c :: d :: rest => do
    let high ← unit? a b c d
    if isLowHalf high then none
    else if isHighHalf high then
      match rest with
      | '\\' :: 'u' :: a :: b :: c :: d :: rest => do
        let low ← unit? a b c d
        if isLowHalf low then
          return Char.ofNat (0x10000 + (high - 0xD800) * 0x400 + (low - 0xDC00)) :: (← decode? rest)
        else none
      | _ => none
    else return Char.ofNat high :: (← decode? rest)
  | '\\' :: c :: rest => do return (← escaped? c) :: (← decode? rest)
  | c :: rest =>
    if c == '\\' || c == '"' || c.toNat < 32 then none else do return c :: (← decode? rest)

theorem unit?_control (n : Nat) (h : n < 32) :
    unit? '0' '0' (hexDigit (n / 16)) (hexDigit (n % 16)) = some n := by
  have all : ∀ m ∈ List.range 32, unit? '0' '0' (hexDigit (m / 16)) (hexDigit (m % 16)) = some m := by
    decide
  exact all n (List.mem_range.mpr h)

theorem decode?_encodeChar_append (c : Char) (rest : List Char) :
    decode? (encodeChar c ++ rest) = (decode? rest).map (c :: ·) := by
  by_cases short : c ∈ ['"', '\\', '\x08', '\x0c', '\n', '\r', '\t']
  · simp only [List.mem_cons, List.not_mem_nil, or_false] at short
    rcases short with rfl | rfl | rfl | rfl | rfl | rfl | rfl <;>
      simp [encodeChar, decode?, escaped?] <;> cases decode? rest <;> rfl
  · simp only [List.mem_cons, List.not_mem_nil, or_false, not_or] at short
    obtain ⟨h1, h2, h3, h4, h5, h6, h7⟩ := short
    by_cases hc : c.toNat < 32
    · have hn := unit?_control c.toNat hc
      have hs : isLowHalf c.toNat = false ∧ isHighHalf c.toNat = false := by
        simp [isLowHalf, isHighHalf]; omega
      simp [encodeChar, h1, h2, h3, h4, h5, h6, h7, hc, decode?, hn, hs]
      cases decode? rest <;> simp
    · have he : encodeChar c = [c] := by simp [encodeChar, h1, h2, h3, h4, h5, h6, h7, hc]
      rw [he, List.singleton_append, decode?]
      · simp [h1, h2, hc]
        cases decode? rest <;> rfl
      · simp [h2]
      · simp [h2]

/-- What is written is read back. -/
theorem decode?_encode (cs : List Char) : decode? (encode cs) = some cs := by
  induction cs with
  | nil => rfl
  | cons c rest ih =>
    have h : encode (c :: rest) = encodeChar c ++ encode rest := rfl
    rw [h, decode?_encodeChar_append, ih]
    rfl

theorem read?_encodeChar_append (c : Char) (text : List Char) :
    read? (encodeChar c ++ text) = (read? text).map fun (inner, rest) =>
      (encodeChar c ++ inner, rest) := by
  by_cases short : c ∈ ['"', '\\', '\x08', '\x0c', '\n', '\r', '\t']
  · simp only [List.mem_cons, List.not_mem_nil, or_false] at short
    rcases short with rfl | rfl | rfl | rfl | rfl | rfl | rfl <;>
      simp [encodeChar, read?, escaped?] <;> cases read? text <;> rfl
  · simp only [List.mem_cons, List.not_mem_nil, or_false, not_or] at short
    obtain ⟨h1, h2, h3, h4, h5, h6, h7⟩ := short
    by_cases hc : c.toNat < 32
    · have hn := unit?_control c.toNat hc
      simp [encodeChar, h1, h2, h3, h4, h5, h6, h7, hc, read?, hn]
      cases read? text <;> rfl
    · have he : encodeChar c = [c] := by simp [encodeChar, h1, h2, h3, h4, h5, h6, h7, hc]
      rw [he, List.singleton_append, read?]
      · simp [h2, hc]
        cases read? text <;> rfl
      · simp [h1]
      · simp [h2]
      · simp [h2]

/-- A written literal is read up to its closing quote. -/
theorem read?_encode (cs rest : List Char) :
    read? (encode cs ++ '"' :: rest) = some (encode cs, rest) := by
  induction cs with
  | nil => simp [encode, read?]
  | cons c cs ih =>
    have h : encode (c :: cs) = encodeChar c ++ encode cs := rfl
    rw [h, List.append_assoc, read?_encodeChar_append, ih]
    rfl

end SqlBoundary.Json.Literal
