import StructuredText.Text.CharClass

set_option autoImplicit false

namespace StructuredText

def sameLetters (a b : List Char) : Bool :=
  a.map Char.toUpper == b.map Char.toUpper

def sectionKeywords : List String :=
  ["VAR", "VAR_INPUT", "VAR_OUTPUT", "VAR_IN_OUT", "VAR_TEMP", "VAR_GLOBAL", "VAR_EXTERNAL",
    "VAR_STAT", "VAR_INST", "VAR_CONFIG", "VAR_ACCESS"]

def sectionQualifiers : List String :=
  ["CONSTANT", "RETAIN", "PERSISTENT", "NON_RETAIN"]

def headerKeywords : List String :=
  ["PROGRAM", "FUNCTION", "FUNCTION_BLOCK", "METHOD", "PROPERTY"]

-- Closing words that are written in capitals only. `END_IF` is not one of them.
def closingKeywords : List String :=
  ["END_PROGRAM", "END_FUNCTION", "END_FUNCTION_BLOCK", "END_METHOD", "END_PROPERTY", "END_VAR",
    "END_GET", "END_SET", "END_FOR", "END_CASE", "END_WHILE", "END_REPEAT"]

inductive Cut where
  | before
  | after
  -- A section keyword stands alone with its qualifiers.
  | aroundSection
  -- A closing word stands alone with the semicolon after it.
  | aroundClosing
  | around
  deriving DecidableEq

def Cut.ofWord? (word : List Char) : Option Cut :=
  let is (keyword : String) := sameLetters word keyword.toList
  let among (keywords : List String) := keywords.any fun keyword => keyword.toList == word
  if among headerKeywords || is "IF" || is "ELSIF" then some .before
  else if is "THEN" then some .after
  else if is "ELSE" then some .around
  else if is "END_IF" || among closingKeywords then some .aroundClosing
  else if among sectionKeywords then some .aroundSection
  else none

end StructuredText
