import StructuredText.Text.Split
import StructuredText.Toml.Table

set_option autoImplicit false

namespace StructuredText.Toml

abbrev Read (α : Type) := List Char → Option (α × List Char)

def isSpace (c : Char) : Bool :=
  c == ' ' || c == '\t'

def skipSpaces (s : List Char) : List Char :=
  s.dropWhile isSpace

-- Control characters other than the tab are not allowed anywhere but as line ends.
def isPlain (c : Char) : Bool :=
  c == '\t' || (decide (0x20 ≤ c.toNat) && c.toNat != 0x7F)

-- A line end, after spaces and a comment. The end of the text counts as one.
def lineEnd (s : List Char) : Option (List Char) :=
  let s := skipSpaces s
  let s := if s.head? = some '#' then s.dropWhile isPlain else s
  match s with
  | [] => some []
  | '\n' :: rest => some rest
  | '\r' :: '\n' :: rest => some rest
  | _ => none

def skipTrivia (inComment : Bool) : List Char → List Char
  | [] => []
  | '\n' :: rest => skipTrivia false rest
  | '\r' :: '\n' :: rest => skipTrivia false rest
  | c :: rest =>
    if inComment then if isPlain c then skipTrivia true rest else c :: rest
    else if isSpace c then skipTrivia false rest
    else if c = '#' then skipTrivia true rest
    else c :: rest

def hexValue? (c : Char) : Option Nat :=
  if c.isDigit then some (c.toNat - 48)
  else if 'a' ≤ c ∧ c ≤ 'f' then some (c.toNat - 87)
  else if 'A' ≤ c ∧ c ≤ 'F' then some (c.toNat - 55)
  else none

def charOfHex? (digits : List Char) : Option Char := do
  let n ← digits.foldlM (fun n c => (hexValue? c).map (16 * n + ·)) 0
  if n.isValidChar then some (Char.ofNat n) else none

def simpleEscape? (c : Char) : Option Char :=
  match c with
  | 'b' => some '\x08'
  | 't' => some '\t'
  | 'n' => some '\n'
  | 'f' => some '\x0c'
  | 'r' => some '\r'
  | 'e' => some '\x1b'
  | '\x22' => some '\x22'
  | '\\' => some '\\'
  | _ => none

def push (c : Option Char) (read : Option (List Char × List Char)) :
    Option (List Char × List Char) := do
  let (text, rest) ← read
  return ((← c) :: text, rest)

def basicBody : Read (List Char)
  | [] => none
  | '\x22' :: rest => some ([], rest)
  | '\\' :: 'x' :: a :: b :: rest => push (charOfHex? [a, b]) (basicBody rest)
  | '\\' :: 'u' :: a :: b :: c :: d :: rest => push (charOfHex? [a, b, c, d]) (basicBody rest)
  | '\\' :: 'U' :: a :: b :: c :: d :: e :: f :: g :: h :: rest =>
    push (charOfHex? [a, b, c, d, e, f, g, h]) (basicBody rest)
  | '\\' :: c :: rest => push (simpleEscape? c) (basicBody rest)
  | c :: rest => if c ≠ '\\' ∧ isPlain c then push (some c) (basicBody rest) else none

def endsLine (s : List Char) : Bool :=
  match skipSpaces s with
  | '\n' :: _ => true
  | '\r' :: '\n' :: _ => true
  | _ => false

-- The text of a multi-line basic string. Line ends are kept as they are written, and up to two
-- quotes may stand right before the end.
def multilineBody (skipping : Bool) : Read (List Char)
  | [] => none
  | '\x22' :: '\x22' :: '\x22' :: '\x22' :: '\x22' :: rest => some (['\x22', '\x22'], rest)
  | '\x22' :: '\x22' :: '\x22' :: '\x22' :: rest => some (['\x22'], rest)
  | '\x22' :: '\x22' :: '\x22' :: rest => some ([], rest)
  | '\n' :: rest =>
    if skipping then multilineBody true rest else push (some '\n') (multilineBody false rest)
  | '\r' :: '\n' :: rest =>
    if skipping then multilineBody true rest
    else push (some '\r') (push (some '\n') (multilineBody false rest))
  | '\\' :: 'x' :: a :: b :: rest => push (charOfHex? [a, b]) (multilineBody false rest)
  | '\\' :: 'u' :: a :: b :: c :: d :: rest =>
    push (charOfHex? [a, b, c, d]) (multilineBody false rest)
  | '\\' :: 'U' :: a :: b :: c :: d :: e :: f :: g :: h :: rest =>
    push (charOfHex? [a, b, c, d, e, f, g, h]) (multilineBody false rest)
  | '\\' :: c :: rest =>
    if endsLine (c :: rest) then multilineBody true (c :: rest)
    else push (simpleEscape? c) (multilineBody false rest)
  | c :: rest =>
    if skipping && isSpace c then multilineBody true rest
    else if c ≠ '\\' ∧ isPlain c then push (some c) (multilineBody false rest)
    else none

def literalBody : Read (List Char) := fun s => do
  let (text, rest) ← splitAtChar '\x27' s
  if text.all isPlain then some (text, rest) else none

def lineString : Read (List Char)
  | '\x22' :: rest => basicBody rest
  | '\x27' :: rest => literalBody rest
  | _ => none

def anyString : Read (List Char)
  | '\x22' :: '\x22' :: '\x22' :: '\n' :: rest => multilineBody false rest
  | '\x22' :: '\x22' :: '\x22' :: '\r' :: '\n' :: rest => multilineBody false rest
  | '\x22' :: '\x22' :: '\x22' :: rest => multilineBody false rest
  | s => lineString s

def isBareChar (c : Char) : Bool :=
  c.isAlphanum || c == '_' || c == '-'

def bareKey : Read (List Char) := fun s =>
  let key := s.takeWhile isBareChar
  if key.isEmpty then none else some (key, s.dropWhile isBareChar)

def keyPath : Nat → Read (List String)
  | 0, _ => none
  | fuel + 1, s => do
    let s := skipSpaces s
    let (name, rest) ← (lineString s).or (bareKey s)
    match skipSpaces rest with
    | '.' :: rest =>
      let (path, rest) ← keyPath fuel rest
      some (String.ofList name :: path, rest)
    | rest => some ([String.ofList name], rest)

def digits? (base : Nat) (s : List Char) : Option Nat :=
  let groups := splitWhere (· == '_') s
  if groups.any List.isEmpty then none
  else
    groups.flatten.foldlM (fun n c => do
      let d ← hexValue? c
      if d < base then some (base * n + d) else none) 0

def integer? : List Char → Option Int
  | '0' :: 'x' :: s => (digits? 16 s).map Int.ofNat
  | '0' :: 'o' :: s => (digits? 8 s).map Int.ofNat
  | '0' :: 'b' :: s => (digits? 2 s).map Int.ofNat
  | '+' :: s => (decimal? s).map Int.ofNat
  | '-' :: s => (decimal? s).map fun n => -Int.ofNat n
  | s => (decimal? s).map Int.ofNat
where
  decimal? (s : List Char) : Option Nat :=
    if s.head? = some '0' ∧ s ≠ ['0'] then none else digits? 10 s

def inRange (n : Int) : Bool :=
  decide (-0x80000000000000000000000000000000 ≤ n) &&
    decide (n ≤ 0xFFFFFFFFFFFFFFFFFFFFFFFFFFFFFFFF)

def scalar : Read Value := fun s =>
  let isPart (c : Char) := isBareChar c || c == '+' || c == '.' || c == ':'
  let word := s.takeWhile isPart
  let rest := s.dropWhile isPart
  if word = "true".toList then some (.boolean true, rest)
  else if word = "false".toList then some (.boolean false, rest)
  else ((integer? word).filter inRange).map fun n => (.integer n, rest)

mutual

def value : Nat → Read Value
  | 0, _ => none
  | fuel + 1, '\x7b' :: rest =>
    (inlineEntries fuel [] (skipTrivia false rest)).map fun (entries, rest) =>
      (.table .inline entries, rest)
  | _ + 1, s =>
    ((anyString s).map fun (text, rest) => (.string (String.ofList text), rest)).or (scalar s)

def inlineEntries : Nat → Table → Read Table
  | 0, _, _ => none
  | _ + 1, table, '\x7d' :: rest => some (table, rest)
  | fuel + 1, table, s => do
    let (key, item, rest) ← keyValue fuel s
    let table ← table.insert item key
    match skipTrivia false rest with
    | ',' :: rest => inlineEntries fuel table (skipTrivia false rest)
    | '\x7d' :: rest => some (table, rest)
    | _ => none

def keyValue : Nat → List Char → Option (List String × Value × List Char)
  | 0, _ => none
  | fuel + 1, s => do
    let (key, rest) ← keyPath fuel s
    match rest with
    | '=' :: rest =>
      let (item, rest) ← value fuel (skipSpaces rest)
      some (key, item, rest)
    | _ => none

end

def documentLines : Nat → List String → Table → List Char → Option Table
  | 0, _, _, _ => none
  | fuel + 1, header, table, s =>
    match skipSpaces s with
    | [] => some table
    | '[' :: rest => do
      let (header, rest) ← keyPath fuel rest
      match rest with
      | ']' :: rest => documentLines fuel header (← table.openHeader header) (← lineEnd rest)
      | _ => none
    | s =>
      match lineEnd s with
      | some rest => documentLines fuel header table rest
      | none => do
        let (key, item, rest) ← keyValue fuel s
        documentLines fuel header (← table.insertBelow item key header) (← lineEnd rest)

-- Reads a document. Every step takes at least one character, so the length of the text is fuel
-- enough.
def parse? (s : List Char) : Option Table :=
  let s := if s.head? = some '\ufeff' then s.drop 1 else s
  documentLines (2 * s.length + 2) [] [] s

end StructuredText.Toml
