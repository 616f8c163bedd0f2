import StructuredText.Text.Blank

set_option autoImplicit false

namespace StructuredText

-- Drops the leading pragmas. Each ends at its first closing brace; one that is never closed takes
-- the whole text with it.
def withoutPragmas (s : List Char) : List Char :=
  match s with
  | '\x7b' :: rest =>
    match _h : splitAtChar '\x7d' rest with
    | some (_, after) => withoutPragmas (trimStart after)
    | none => []
  | s => s
termination_by s.length
decreasing_by
  have := trimStart_length_le after
  simp only [splitAtChar_eq _h, List.length_cons, List.length_append]
  omega

end StructuredText
