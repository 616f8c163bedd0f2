import StructuredText.Text.CharClass
import StructuredText.Text.Split

set_option autoImplicit false

namespace StructuredText

def trimStart (s : List Char) : List Char :=
  s.dropWhile isBlank

def trimEnd (s : List Char) : List Char :=
  (s.reverse.dropWhile isBlank).reverse

def trim (s : List Char) : List Char :=
  trimEnd (trimStart s)

def words (s : List Char) : List (List Char) :=
  (splitWhere isBlank s).filter fun word => !word.isEmpty

def squash (s : List Char) : List Char :=
  [' '].intercalate (words s)

def withoutTerminator (s : List Char) : List Char :=
  if s.getLast? = some ';' then trimEnd s.dropLast else trimEnd s

theorem trimStart_suffix (s : List Char) : trimStart s <:+ s :=
  List.dropWhile_suffix _

theorem trimStart_length_le (s : List Char) : (trimStart s).length ≤ s.length :=
  (trimStart_suffix s).length_le

end StructuredText
