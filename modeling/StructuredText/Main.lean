import StructuredText.Command.Run

set_option autoImplicit false

namespace StructuredText.Command

def FileError.ofIO : IO.Error → FileError
  | .noFileOrDirectory .. => .notFound
  | .alreadyExists .. => .alreadyThere
  | .inappropriateType _ code _ => if code = 20 then .notDirectory else .isDirectory
  | e => .other (toString e)

def attempt {α : Type} (action : IO α) : IO (Except FileError α) := do
  match ← action.toBaseIO with
  | .ok a => return .ok a
  | .error e => return .error (.ofIO e)

def disk : FileSystem IO where
  currentDirectory := do
    match ← attempt IO.currentDir with
    | .ok directory => return some directory.toString
    | .error _ => return none
  readText path := do
    match ← attempt (IO.FS.readBinFile path) with
    | .error e => return .error e
    | .ok bytes =>
      match String.fromUTF8? bytes with
      | some text => return .ok text
      | none => return .error .notText
  isFile path := do
    match ← attempt (IO.FS.readBinFile path) with
    | .ok _ => return true
    | .error _ => return false
  makeDirectories path := attempt (IO.FS.createDirAll path)
  writeText path text := attempt (IO.FS.writeFile path text)

end StructuredText.Command

def main (args : List String) : IO UInt32 := do
  let outcome ← StructuredText.Command.installed.run StructuredText.Command.disk args
  IO.print outcome.stdout
  IO.eprint outcome.stderr
  return outcome.exit.toUInt32
