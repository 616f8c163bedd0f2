import StructuredText.Grammar.Reader

set_option autoImplicit false

namespace StructuredText.TypeExpr

open Reader

def wrapper : Reader := fun s =>
  (array s).or ((wordTo "POINTER" s).or (wordTo "REFERENCE" s))
where
  array : Reader := fun s => do
    let s ← literal "ARRAY" s
    let s ← bracketed '[' ']' (trimStart s)
    let s ← literal "OF" (trimStart s)
    blanks s
  wordTo (keyword : String) : Reader := fun s => do
    let s ← literal keyword s
    let s ← blanks s
    let s ← literal "TO" s
    blanks s

def base : Reader
  | [] => none
  | c :: rest =>
    if isNameStart c then
      let after := rest.dropWhile fun c => isNameChar c || c == '.'
      let range := bracketed '[' ']' (trimStart after)
      let size := bracketed '(' ')' (trimStart after)
      some ((range.or size).getD after)
    else none

theorem wrapper_length {s rest : List Char} (h : wrapper s = some rest) :
    rest.length < s.length := by
  have array_length {s rest : List Char} (h : wrapper.array s = some rest) :
      rest.length < s.length := by
    simp only [wrapper.array, bind, Option.bind_eq_some_iff] at h
    obtain ⟨s₁, h₁, s₂, h₂, s₃, h₃, h₄⟩ := h
    have := literal_length h₁
    have := bracketed_length h₂
    have := literal_length h₃
    have := blanks_length h₄
    have := trimStart_length_le s₁
    have := trimStart_length_le s₂
    omega
  have wordTo_length {keyword : String} {s rest : List Char}
      (h : wrapper.wordTo keyword s = some rest) : rest.length < s.length := by
    simp only [wrapper.wordTo, bind, Option.bind_eq_some_iff] at h
    obtain ⟨s₁, h₁, s₂, h₂, s₃, h₃, h₄⟩ := h
    have := literal_length h₁
    have := blanks_length h₂
    have := literal_length h₃
    have := blanks_length h₄
    omega
  simp only [wrapper, Option.or_eq_some_iff] at h
  rcases h with h | ⟨-, h | ⟨-, h⟩⟩
  · exact array_length h
  · exact wordTo_length h
  · exact wordTo_length h

def reader (s : List Char) : Option (List Char) :=
  match _h : wrapper s with
  | some rest => reader rest
  | none => base s
termination_by s.length
decreasing_by exact wrapper_length _h

theorem reader_of_wrapper {s rest : List Char} (wrapped : wrapper s = some rest) :
    reader s = reader rest := by
  rw [reader]
  split
  · rename_i more found
    rw [wrapped] at found
    rw [Option.some.inj found]
  · rename_i none
    rw [wrapped] at none
    cases none

theorem reader_of_base {s : List Char} (notWrapped : wrapper s = none) : reader s = base s := by
  rw [reader]
  split
  · rename_i more found
    rw [notWrapped] at found
    cases found
  · rfl

def read? (s : List Char) : Option (String × List Char) :=
  (reader s).map fun rest => (String.ofList (squash (consumed s rest)), rest)

end StructuredText.TypeExpr
