import StructuredText.Text.Split

set_option autoImplicit false

namespace StructuredText.Command

inductive FileError where
  | notFound
  | alreadyThere
  | notDirectory
  | isDirectory
  | notText
  | other (text : String)
  deriving DecidableEq

def FileError.message : FileError → String
  | notFound => "No such file or directory (os error 2)"
  | alreadyThere => "File exists (os error 17)"
  | notDirectory => "Not a directory (os error 20)"
  | isDirectory => "Is a directory (os error 21)"
  | notText => "stream did not contain valid UTF-8"
  | other text => text

structure FileSystem (m : Type → Type) where
  -- The directory that relative paths lead on from, if it is known.
  currentDirectory : m (Option String)
  readText : String → m (Except FileError String)
  isFile : String → m Bool
  -- Makes a directory and those above it, as far as they are missing.
  makeDirectories : String → m (Except FileError Unit)
  writeText : String → String → m (Except FileError Unit)

def pathParts (path : String) : List String :=
  (splitWhere (· == '/') path.toList).map String.ofList

-- Empty parts and dots at the end of a path mean nothing, unless they are all of it.
def dropTrailing : List String → List String
  | [] => []
  | first :: rest =>
    first :: (rest.reverse.dropWhile fun part => part == "" || part == ".").reverse

abbrev Place := List String

/-- Files and directories below one directory. Those above a file need not be listed. -/
structure FileTree where
  files : List (Place × ByteArray) := []
  directories : List Place := []

namespace FileTree

def content? (tree : FileTree) (place : Place) : Option ByteArray :=
  tree.files.lookup place

def isDirectory (tree : FileTree) (place : Place) : Bool :=
  place == [] || tree.directories.contains place ||
    tree.files.any fun file => place.isPrefixOf file.1 && place != file.1

def obstacle (tree : FileTree) (place : Place) : FileError :=
  if (tree.content? place).isSome then .notDirectory else .notFound

def walk (tree : FileTree) : List String → Place → Except FileError Place
  | [], place => .ok place
  | part :: rest, place =>
    if !tree.isDirectory place then .error (tree.obstacle place)
    else if part = "" ∨ part = "." then tree.walk rest place
    else if part = ".." then
      if place = [] then .error .notFound else tree.walk rest place.dropLast
    else tree.walk rest (place ++ [part])

def locate (tree : FileTree) (path : String) : Except FileError Place :=
  if path.toList.head? = some '/' then .error .notFound else tree.walk (pathParts path) []

def readText (tree : FileTree) (path : String) : Except FileError String := do
  let place ← tree.locate path
  match tree.content? place with
  | some bytes =>
    match String.fromUTF8? bytes with
    | some text => .ok text
    | none => .error .notText
  | none => .error (if tree.isDirectory place then .isDirectory else .notFound)

def isFile (tree : FileTree) (path : String) : Bool :=
  match tree.locate path with
  | .ok place => (tree.content? place).isSome
  | .error _ => false

def locateParent (tree : FileTree) (parts : List String) : Except FileError (Place × String) := do
  let place ← tree.walk parts.dropLast []
  if tree.isDirectory place then .ok (place, parts.getLast?.getD "")
  else .error (tree.obstacle place)

def isDots (part : String) : Bool :=
  part == "" || part == "." || part == ".."

def setContent (tree : FileTree) (place : Place) (bytes : ByteArray) : FileTree :=
  { tree with files := (place, bytes) :: tree.files.filter fun file => file.1 != place }

def writeText (tree : FileTree) (path text : String) : Except FileError FileTree := do
  if path.toList.head? = some '/' then throw .notFound
  let parts := pathParts path
  let named := (parts.reverse.dropWhile (· == "")).reverse
  let (place, name) ← tree.locateParent named
  if isDots name || named != parts || tree.isDirectory (place ++ [name]) then .error .isDirectory
  else .ok (tree.setContent (place ++ [name]) text.toUTF8)

def makeDirectory (tree : FileTree) (parts : List String) : Except FileError FileTree := do
  let (place, name) ← tree.locateParent parts
  let place := place ++ [name]
  if isDots name || tree.isDirectory place || (tree.content? place).isSome then
    .error .alreadyThere
  else .ok { tree with directories := place :: tree.directories }

-- Makes a directory, given the parts of its path from the last to the first. One that is there
-- already is as good as a new one.
def makeDirectories (tree : FileTree) : List String → Except FileError FileTree
  | [] => .ok tree
  | part :: above =>
    let path := (part :: above).reverse
    let make (tree : FileTree) : Except FileError FileTree :=
      match tree.makeDirectory path with
      | .ok tree => .ok tree
      | .error e =>
        match tree.walk path [] with
        | .ok place => if tree.isDirectory place then .ok tree else .error e
        | .error _ => .error e
    match make tree with
    | .ok tree => .ok tree
    | .error .notFound => (tree.makeDirectories above).bind make
    | .error e => .error e

def fileSystem : FileSystem (StateM FileTree) where
  currentDirectory := return some ""
  readText path := do return (← get).readText path
  isFile path := do return (← get).isFile path
  makeDirectories path := do
    -- The top of an absolute path is there, and nothing below it.
    if path.toList.head? = some '/' then
      return if dropTrailing (pathParts path) = [""] then .ok () else .error .notFound
    match (← get).makeDirectories (dropTrailing (pathParts path)).reverse with
    | .ok tree => set tree; return .ok ()
    | .error e => return .error e
  writeText path text := do
    match (← get).writeText path text with
    | .ok tree => set tree; return .ok ()
    | .error e => return .error e

end FileTree

end StructuredText.Command
