
set_option autoImplicit false

namespace StructuredText

def width : List Char → Nat
  | [] => 0
  | c :: s => c.utf8Size + width s

def charsBefore? : List Char → Nat → Option Nat
  | _, 0 => some 0
  | [], _ + 1 => none
  | c :: rest, offset =>
    if c.utf8Size ≤ offset then (charsBefore? rest (offset - c.utf8Size)).map (· + 1) else none

@[simp] theorem width_nil : width [] = 0 := rfl

@[simp] theorem width_cons (c : Char) (s : List Char) :
    width (c :: s) = c.utf8Size + width s := rfl

@[simp] theorem width_append (s t : List Char) : width (s ++ t) = width s + width t := by
  induction s with
  | nil => simp
  | cons c s ih => simp [ih, Nat.add_assoc]

theorem width_pos {s : List Char} (nonempty : s ≠ []) : 0 < width s := by
  obtain ⟨c, rest, rfl⟩ := List.exists_cons_of_ne_nil nonempty
  have positive := c.utf8Size_pos
  rw [width_cons]
  omega

theorem charsBefore?_width (s t : List Char) : charsBefore? (s ++ t) (width s) = some s.length := by
  induction s with
  | nil => cases t <;> simp [charsBefore?]
  | cons c s ih =>
    have hpos := c.utf8Size_pos
    obtain ⟨n, hn⟩ : ∃ n, width (c :: s) = n + 1 := ⟨c.utf8Size + width s - 1, by simp; omega⟩
    rw [hn, List.cons_append, charsBefore?, ← hn]
    · simp [ih]
    · simp

end StructuredText
