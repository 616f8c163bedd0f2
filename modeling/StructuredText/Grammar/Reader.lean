import StructuredText.Text.Blank

set_option autoImplicit false

namespace StructuredText

abbrev Reader := List Char → Option (List Char)

def consumed (s rest : List Char) : List Char :=
  s.take (s.length - rest.length)

namespace Reader

def literal (keyword : String) : Reader := fun s =>
  if keyword.toList.isPrefixOf s then some (s.drop keyword.toList.length) else none

def blanks : Reader
  | [] => none
  | c :: rest => if isBlank c then some (trimStart rest) else none

def name : Reader
  | [] => none
  | c :: rest => if isNameStart c then some (rest.dropWhile isNameChar) else none

def bracketed (opening closing : Char) : Reader
  | [] => none
  | c :: rest => if c = opening then (splitAtChar closing rest).map Prod.snd else none

def wordAmong (keywords : List String) : Reader := fun s =>
  keywords.findSome? fun keyword => (literal keyword s).bind blanks

theorem literal_length {keyword : String} {s rest : List Char}
    (h : literal keyword s = some rest) :
    rest.length + keyword.toList.length = s.length := by
  simp only [literal, Option.ite_none_right_eq_some, Option.some.injEq, List.isPrefixOf_iff_prefix]
    at h
  obtain ⟨hle, rfl⟩ := h
  have := hle.length_le
  simp only [List.length_drop]
  omega

theorem blanks_length {s rest : List Char} (h : blanks s = some rest) :
    rest.length < s.length := by
  cases s with
  | nil => simp [blanks] at h
  | cons c s =>
    simp only [blanks, Option.ite_none_right_eq_some, Option.some.injEq] at h
    obtain ⟨_, rfl⟩ := h
    exact Nat.lt_succ_of_le (trimStart_length_le s)

theorem name_length {s rest : List Char} (h : name s = some rest) : rest.length < s.length := by
  cases s with
  | nil => simp [name] at h
  | cons c s =>
    simp only [name, Option.ite_none_right_eq_some, Option.some.injEq] at h
    obtain ⟨_, rfl⟩ := h
    exact Nat.lt_succ_of_le (List.dropWhile_suffix _).length_le

theorem bracketed_length {opening closing : Char} {s rest : List Char}
    (h : bracketed opening closing s = some rest) : rest.length < s.length := by
  cases s with
  | nil => simp [bracketed] at h
  | cons c s =>
    simp only [bracketed, Option.ite_none_right_eq_some, Option.map_eq_some_iff] at h
    obtain ⟨_, ⟨before, after⟩, hsplit, rfl⟩ := h
    simp only [splitAtChar_eq hsplit, List.length_cons, List.length_append]
    omega

theorem wordAmong_length {keywords : List String} {s rest : List Char}
    (h : wordAmong keywords s = some rest) : rest.length < s.length := by
  obtain ⟨keyword, _, hk⟩ := List.exists_of_findSome?_eq_some h
  obtain ⟨mid, hmid, hrest⟩ := Option.bind_eq_some_iff.1 hk
  have h₁ := literal_length hmid
  have h₂ := blanks_length hrest
  omega

end Reader

def isName (s : List Char) : Bool :=
  Reader.name s == some []

def isQualifiedName (s : List Char) : Bool :=
  (splitWhere (· == '.') s).all isName

end StructuredText
