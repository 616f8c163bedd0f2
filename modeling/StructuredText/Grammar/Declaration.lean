import StructuredText.Grammar.TypeExpr

set_option autoImplicit false

namespace StructuredText

open Reader

-- `a, b : TYPE := value;`. The names share type and value.
structure Declaration where
  names : List String
  type : String
  initialValue : Option String
  deriving DecidableEq

namespace Declaration

-- What may stand behind the type: a semicolon, or a value on one line and a semicolon. A value of
-- blanks only counts as none, but it has to hold a blank other than a newline.
def initialiser? (s : List Char) : Option (Option String) :=
  if s = [';'] then some none
  else do
    let body ← literal ":=" s
    let value := trim body.dropLast
    if body.getLast? ≠ some ';' then none
    else if value = [] then if body.dropLast.any (· != '\n') then some none else none
    else if value.contains '\n' then none
    else some (some (String.ofList value))

def read? (s : List Char) : Option Declaration := do
  let (before, rest) ← splitAtChar ':' s
  let names := (splitWhere (· == ',') before).map trim
  let (type, rest) ← TypeExpr.read? (trimStart rest)
  let initialValue ← initialiser? (trimStart rest)
  if trimStart before == before && names.all isName then
    some { names := names.map String.ofList, type, initialValue }
  else none

end Declaration

structure Parameter where
  name : String
  type : String
  initialValue : Option String
  deriving DecidableEq

namespace Parameter

def default? (s : List Char) : Option (Option String) :=
  if s = [] then some none
  else do
    let body ← literal ":=" s
    let value := trim body
    if value = [] || value.contains '\n' then none else some (some (String.ofList value))

def read? (s : List Char) : Option Parameter := do
  let (before, rest) ← splitAtChar ':' s
  let (type, rest) ← TypeExpr.read? (trimStart rest)
  let initialValue ← default? (trimStart rest)
  if isName (trimEnd before) then
    some { name := String.ofList (trimEnd before), type, initialValue }
  else none

def nesting (c : Char) : Int :=
  if c = '(' ∨ c = '[' then 1 else if c = ')' ∨ c = ']' then -1 else 0

def splitTopLevel (depth : Int) : List Char → List (List Char)
  | [] => [[]]
  | c :: rest =>
    if c = ',' ∧ depth = 0 then [] :: splitTopLevel depth rest
    else consFirst c (splitTopLevel (depth + nesting c) rest)

def readList (s : List Char) : List (Except String Parameter) :=
  let entries := ((splitTopLevel 0 s).map trim).filter fun entry => !entry.isEmpty
  entries.map fun entry =>
    match read? entry with
    | some parameter => .ok parameter
    | none => .error (String.ofList entry)

end Parameter

end StructuredText
