import StructuredText.Text.Blank
import StructuredText.Text.WordCharacter

set_option autoImplicit false

namespace StructuredText

def foldCase (c : Char) : Char :=
  if c = 'ſ' then 'S' else c.toUpper

def isKeyword (keyword : String) (s : List Char) : Bool :=
  s.map foldCase == keyword.toList

def afterKeyword? (keyword : String) (s : List Char) : Option (List Char) :=
  let n := keyword.toList.length
  if isKeyword keyword (s.take n) then some (s.drop n) else none

def beforeKeyword? (keyword : String) (s : List Char) : Option (List Char) :=
  let n := s.length - keyword.toList.length
  if isKeyword keyword (s.drop n) then some (s.take n) else none

def startsWithWord (keyword : String) (s : List Char) : Bool :=
  (afterKeyword? keyword s).any fun rest => rest.head?.all (!isWordChar ·)

inductive ConditionalWord where
  | ifThen (condition : String)
  | elsif (condition : String)
  | otherwise
  | endIf
  deriving DecidableEq

namespace ConditionalWord

-- The condition between a keyword and `THEN`. Both are words of their own.
def condition? (keyword : String) (s : List Char) : Option String := do
  let rest ← afterKeyword? keyword s
  let condition ← beforeKeyword? "THEN" rest
  let first ← condition.head?
  let last ← condition.getLast?
  if isWordChar first || isWordChar last then none
  else some (String.ofList (trim condition))

def read? (s : List Char) : Option ConditionalWord :=
  ((condition? "IF" s).map ifThen).or <| ((condition? "ELSIF" s).map elsif).or <|
    if isKeyword "ELSE" s then some otherwise
    else if isKeyword "END_IF" (withoutTerminator s) then some endIf
    else none

end ConditionalWord

def openCondition? (s : List Char) : Option String :=
  (["IF", "ELSIF"].find? fun keyword => startsWithWord keyword s).map fun keyword =>
    String.ofList ((s.take keyword.toList.length).map Char.toUpper)

inductive BlockWord where
  | opening
  | closing
  deriving DecidableEq

namespace BlockWord

def keywords : List String :=
  ["CASE", "FOR", "WHILE", "REPEAT"]

def read? (s : List Char) : Option BlockWord :=
  if keywords.any fun keyword => startsWithWord keyword s then some opening
  else if keywords.any fun keyword => isKeyword ("END_" ++ keyword) (withoutTerminator s) then
    some closing
  else none

end BlockWord

end StructuredText
