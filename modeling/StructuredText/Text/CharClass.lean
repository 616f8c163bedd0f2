
set_option autoImplicit false

namespace StructuredText

def inRanges (table : List (Nat × Nat)) (c : Char) : Bool :=
  table.any fun range => decide (range.1 ≤ c.toNat) && decide (c.toNat ≤ range.2)

def blankRanges : List (Nat × Nat) :=
  [(0x09, 0x0D), (0x20, 0x20), (0x85, 0x85), (0xA0, 0xA0), (0x1680, 0x1680), (0x2000, 0x200A),
    (0x2028, 0x2029), (0x202F, 0x202F), (0x205F, 0x205F), (0x3000, 0x3000)]

def isBlank (c : Char) : Bool :=
  inRanges blankRanges c

-- The blanks that may stand between a keyword and what belongs to it. The vertical tab is not one
-- of them.
def isSpacing (c : Char) : Bool :=
  c == ' ' || c == '\t' || c == '\n' || c == '\x0c' || c == '\r'

def isNameStart (c : Char) : Bool :=
  c.isAlpha || c == '_'

def isNameChar (c : Char) : Bool :=
  c.isAlphanum || c == '_'

theorem isNameChar_of_isNameStart {c : Char} (h : isNameStart c = true) :
    isNameChar c = true := by
  simp only [isNameStart, isNameChar, Char.isAlphanum, Bool.or_eq_true] at h ⊢
  rcases h with h | h
  · exact .inl (.inl h)
  · exact .inr h

end StructuredText
