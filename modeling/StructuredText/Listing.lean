import StructuredText.Text.Printable

set_option autoImplicit false

namespace StructuredText

inductive Listing where
  | atom (text : String)
  | list (items : List Listing)
  | record (name : String) (fields : List (String × Listing))
  | wrap (name : String) (item : Listing)

namespace Listing

def escapeChar (c : Char) : List Char :=
  if c = '\x00' then ['\\', '0']
  else if c = '\t' then ['\\', 't']
  else if c = '\n' then ['\\', 'n']
  else if c = '\r' then ['\\', 'r']
  else if c = '\\' then ['\\', '\\']
  else if c = '\x22' then ['\\', '\x22']
  else if isPrintable c then [c]
  else '\\' :: 'u' :: '\x7b' :: Nat.toDigits 16 c.toNat ++ ['\x7d']

def quoted (s : String) : Listing :=
  atom ("\x22" ++ String.ofList (s.toList.flatMap escapeChar) ++ "\x22")

def number (n : Nat) : Listing :=
  atom (toString n)

def boolean (b : Bool) : Listing :=
  atom (if b then "true" else "false")

def optional {α : Type} (display : α → Listing) : Option α → Listing
  | some a => wrap "Some" (display a)
  | none => atom "None"

def newline (depth : Nat) : String :=
  "\n" ++ String.ofList (List.replicate (4 * depth) ' ')

mutual

def pretty (depth : Nat) : Listing → String
  | atom text => text
  | list [] => "[]"
  | list items => "[" ++ prettyItems (depth + 1) items ++ newline depth ++ "]"
  | record name fields =>
    name ++ " \x7b" ++ prettyFields (depth + 1) fields ++ newline depth ++ "\x7d"
  | wrap name item =>
    name ++ "(" ++ newline (depth + 1) ++ pretty (depth + 1) item ++ "," ++ newline depth ++ ")"

def prettyItems (depth : Nat) : List Listing → String
  | [] => ""
  | item :: items => newline depth ++ pretty depth item ++ "," ++ prettyItems depth items

def prettyFields (depth : Nat) : List (String × Listing) → String
  | [] => ""
  | (name, value) :: fields =>
    newline depth ++ name ++ ": " ++ pretty depth value ++ "," ++ prettyFields depth fields

end

end Listing

end StructuredText
