set_option autoImplicit false

namespace StructuredText.Command.Path

-- Slashes and single dots at the end of a path mean nothing. The path is given from its end.
def dropBehind : List Char → List Char
  | '/' :: rest => dropBehind rest
  | '.' :: '/' :: rest => dropBehind rest
  | path => path

def split (path : List Char) : List Char × List Char :=
  let ending := dropBehind path.reverse
  ((ending.dropWhile (· != '/')).reverse, (ending.takeWhile (· != '/')).reverse)

-- The directory that a path names something in. It is empty where the path names none.
def parent (path : String) : String :=
  let directory := (split path.toList).1
  match dropBehind directory.reverse with
  | [] => if directory = [] then "" else "/"
  | above => String.ofList above.reverse

-- A name without its extension. A dot at its start begins none.
def stem (name : List Char) : List Char :=
  match name.reverse.dropWhile (· != '.') with
  | '.' :: c :: before => (c :: before).reverse
  | _ => name

def isName (part : List Char) : Bool :=
  part != [] && part != ['.'] && part != ['.', '.']

def fileStem? (path : String) : Option String :=
  let part := (split path.toList).2
  if isName part then some (String.ofList (stem part)) else none

def withExtension (path extension : String) : String :=
  let (directory, part) := split path.toList
  if isName part then String.ofList (directory ++ stem part) ++ "." ++ extension else path

def join (directory name : String) : String :=
  if directory = "" ∨ directory.toList.getLast? = some '/' then directory ++ name
  else directory ++ "/" ++ name

end StructuredText.Command.Path
