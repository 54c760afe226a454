/-!
# Blanks

The characters with the Unicode property `White_Space`, which a program text may hold anywhere without a change of meaning.
Zero-width spaces, the byte order mark and the separators U+001C to U+001F do not have the property.
-/

namespace PMachine

namespace Text

/-- The ranges of code points with the property, first and last included. -/
def blankRanges : List (Nat × Nat) :=
  [(0x09, 0x0D), (0x20, 0x20), (0x85, 0x85), (0xA0, 0xA0), (0x1680, 0x1680), (0x2000, 0x200A), (0x2028, 0x2029),
    (0x202F, 0x202F), (0x205F, 0x205F), (0x3000, 0x3000)]

/-- Whether a character is a blank. -/
def isBlank (c : Char) : Bool := blankRanges.any fun r => r.1 ≤ c.toNat && c.toNat ≤ r.2

end Text

end PMachine
