
set_option autoImplicit false

namespace StructuredText

inductive Json where
  | null
  | bool (value : Bool)
  | num (value : Nat)
  | str (value : String)
  | arr (items : List Json)
  | obj (fields : List (String × Json))

namespace Json

def hexDigit (n : Nat) : Char :=
  if n < 10 then Char.ofNat (48 + n) else Char.ofNat (87 + n)

def escapeChar (c : Char) : List Char :=
  if c = '\x22' then ['\\', '\x22']
  else if c = '\\' then ['\\', '\\']
  else if c = '\x08' then ['\\', 'b']
  else if c = '\t' then ['\\', 't']
  else if c = '\n' then ['\\', 'n']
  else if c = '\x0c' then ['\\', 'f']
  else if c = '\r' then ['\\', 'r']
  else if c.toNat < 0x20 then
    ['\\', 'u', '0', '0', hexDigit (c.toNat / 16), hexDigit (c.toNat % 16)]
  else [c]

def quote (s : String) : String :=
  "\x22" ++ String.ofList (s.toList.flatMap escapeChar) ++ "\x22"

def newline (depth : Nat) : String :=
  "\n" ++ String.ofList (List.replicate (2 * depth) ' ')

mutual

-- Two spaces for each level. Empty lists and objects stay on their line.
def pretty (depth : Nat) : Json → String
  | null => "null"
  | bool true => "true"
  | bool false => "false"
  | num value => toString value
  | str value => quote value
  | arr [] => "[]"
  | arr items => "[" ++ ",".intercalate (prettyItems (depth + 1) items) ++ newline depth ++ "]"
  | obj [] => "\x7b\x7d"
  | obj fields =>
    "\x7b" ++ ",".intercalate (prettyFields (depth + 1) fields) ++ newline depth ++ "\x7d"

def prettyItems (depth : Nat) : List Json → List String
  | [] => []
  | item :: items => (newline depth ++ pretty depth item) :: prettyItems depth items

def prettyFields (depth : Nat) : List (String × Json) → List String
  | [] => []
  | (name, value) :: fields =>
    (newline depth ++ quote name ++ ": " ++ pretty depth value) :: prettyFields depth fields

end

def field? (name : String) (value : Option Json) : List (String × Json) :=
  (value.map fun value => (name, value)).toList

def nonempty? (name : String) (items : List Json) : List (String × Json) :=
  if items.isEmpty then [] else [(name, arr items)]

end Json

end StructuredText
