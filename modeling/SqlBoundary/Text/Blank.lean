/-!
# White space characters

The closed code point ranges of the Unicode property White_Space. The zero width
space U+200B, the byte order mark U+FEFF and the separators U+001C to U+001F do
not have it.
-/

namespace SqlBoundary.Text

/-- All white space ranges in increasing order. -/
def blankRanges : List (Nat × Nat) :=
  [(0x0009, 0x000D), (0x0020, 0x0020), (0x0085, 0x0085), (0x00A0, 0x00A0),
   (0x1680, 0x1680), (0x2000, 0x200A), (0x2028, 0x2029), (0x202F, 0x202F),
   (0x205F, 0x205F), (0x3000, 0x3000)]

end SqlBoundary.Text
