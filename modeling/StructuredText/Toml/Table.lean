
set_option autoImplicit false

namespace StructuredText.Toml

inductive Origin where
  -- It stands above a table that has a header.
  | implicit
  | header
  -- It stands above a dotted key.
  | dotted
  | inline
  deriving DecidableEq

inductive Value where
  | string (text : String)
  | boolean (value : Bool)
  | integer (value : Int)
  | table (origin : Origin) (entries : List (String × Value))

abbrev Table := List (String × Value)

namespace Table

def set (key : String) (value : Value) : Table → Table
  | [] => [(key, value)]
  | (k, v) :: rest => if k = key then (k, value) :: rest else (k, v) :: set key value rest

def modifyTable (key : String) (origin : Origin) (mayEnter : Origin → Bool)
    (change : Table → Option Table) (table : Table) : Option Table :=
  match table.lookup key with
  | none => (change []).map fun sub => table.set key (.table origin sub)
  | some (.table found sub) =>
    if mayEnter found then (change sub).map fun sub => table.set key (.table found sub) else none
  | some _ => none

def openHeader : List String → Table → Option Table
  | [], _ => none
  | [key], table =>
    match table.lookup key with
    | none => some (table.set key (.table .header []))
    | some (.table .implicit sub) => some (table.set key (.table .header sub))
    | some _ => none
  | key :: path, table =>
    table.modifyTable key .implicit (· != .inline) (openHeader path)

def insert (value : Value) : List String → Table → Option Table
  | [], _ => none
  | [key], table => if (table.lookup key).isNone then some (table.set key value) else none
  | key :: path, table =>
    table.modifyTable key .dotted (fun origin => origin == .dotted || origin == .implicit)
      (insert value path)

def insertBelow (value : Value) (key : List String) : List String → Table → Option Table
  | [], table => table.insert value key
  | name :: header, table =>
    table.modifyTable name .header (fun _ => true) (insertBelow value key header)

end Table

end StructuredText.Toml
