import StructuredText.Command.FileSystem
import StructuredText.Command.Path
import StructuredText.Command.Request
import StructuredText.Document.Parse
import StructuredText.Model.Encoding
import StructuredText.Model.Listing
import StructuredText.PlcOpen.Export
import StructuredText.Settings

set_option autoImplicit false

namespace StructuredText.Command

structure Outcome where
  exit : Nat := 0
  stdout : String := ""
  stderr : String := ""
  deriving DecidableEq

def Outcome.failure (printed message : String) : Outcome :=
  { exit := 1, stderr := printed ++ "Error: " ++ message ++ "\n" }

def diagnosticLine (file : String) (diagnostic : Diagnostic) : String :=
  let column :=
    match diagnostic.column with
    | some column => ":" ++ toString column
    | none => ""
  file ++ ":" ++ toString diagnostic.line ++ column ++ ": " ++ diagnostic.message

def diagnosticLines (file : String) (document : Document) : String :=
  unlines (document.diagnostics.map (diagnosticLine file))

def countText (document : Document) : String :=
  toString document.diagnostics.length ++ " diagnostic(s)"

def check (settings : Settings) (file : String) (document : Document) : Outcome :=
  if document.isOk then
    { stdout := file ++ ": " ++ toString document.pouCount ++ " POU(s), no diagnostics\n" }
  else
    { exit := if settings.failOnErrors then 2 else 0
      stdout := diagnosticLines file document ++ countText document ++ "\n" }

def outlineLine (entry : OutlineEntry) : String :=
  let detail :=
    match entry.detail with
    | some detail => " " ++ detail
    | none => ""
  padding entry.depth "  " ++ entry.kind.description ++ " " ++ entry.name ++ detail ++
    " (line " ++ toString entry.line ++ ")"

def outline (json : Bool) (document : Document) : Outcome :=
  if json then
    { stdout := (Json.arr (document.outline.map OutlineEntry.toJson)).pretty 0 ++ "\n" }
  else { stdout := unlines (document.outline.map outlineLine) }

def list (json : Bool) (document : Document) : Outcome :=
  { stdout := (if json then document.toJson.pretty 0 else document.toListing.pretty 0) ++ "\n" }

-- The options in effect: those of the command line, then those of the configuration. A project
-- without a name is named after its file.
def exportOptions (settings : Settings) (request : ExportRequest) (file : String) :
    PlcOpen.Options :=
  let options := settings.options
  { options with
    indent :=
      match request.indent with
      | some n => String.ofList (List.replicate n ' ')
      | none => options.indent
    productName := request.productName.getD options.productName
    projectName := options.projectName.or (Path.fileStem? file) }

def outputPath (request : ExportRequest) (file : String) : String :=
  request.output.getD (Path.withExtension file "xml")

/-- The libraries that a command relies on. The first reads a command line, or says what it comes to
where there is nothing to run. The second reads the text of a configuration, if it is valid. -/
structure Libraries where
  request : List String → Except Outcome Request
  configuration? : String → Option ConfigFile

def configNames : List String :=
  ["codefirst.toml", ".codefirst.toml"]

section

variable {m : Type → Type} [Monad m] (libraries : Libraries) (fs : FileSystem m)

def findConfig (file : String) : m (Option String) := do
  let beside := Path.parent file
  let current ← fs.currentDirectory
  let directories := (if beside = "" then [] else [beside]) ++ current.toList
  let candidates := directories.flatMap fun directory => configNames.map (Path.join directory)
  candidates.findM? fs.isFile

def loadSettings (config : Option String) (file : String) : m Settings := do
  let path ←
    match config with
    | some path => pure (some path)
    | none => findConfig fs file
  match path with
  | none => return {}
  | some path =>
    match ← fs.readText path with
    | .ok text => return .ofFile (libraries.configuration? text)
    | .error _ => return {}

def writeExport (options : PlcOpen.Options) (output printed : String) (document : Document) :
    m Outcome := do
  let parent := Path.parent output
  let made ← if parent = "" then pure (.ok ()) else fs.makeDirectories parent
  match made with
  | .error e =>
    return .failure printed ("failed to create output directory '" ++ parent ++ "': " ++ e.message)
  | .ok () =>
    match ← fs.writeText output (PlcOpen.toXml document options) with
    | .error e => return .failure printed ("failed to write '" ++ output ++ "': " ++ e.message)
    | .ok () =>
      return {
        stdout := "Exported " ++ toString document.pouCount ++ " POU(s) to " ++ output ++ "\n"
        stderr := printed }

def exportDocument (settings : Settings) (request : ExportRequest) (file : String)
    (document : Document) : m Outcome := do
  let printed := diagnosticLines file document
  if document.isOk || request.force then
    writeExport fs (exportOptions settings request file) (outputPath request file) printed document
  else
    return .failure printed
      (countText document ++ " in '" ++ file ++ "'; pass --force to export anyway")

def readDocument (file : String) (next : Document → m Outcome) : m Outcome := do
  match ← fs.readText file with
  | .error e => return .failure "" ("failed to read '" ++ file ++ "': " ++ e.message)
  | .ok source => next (parse source)

def perform (request : Request) : m Outcome := do
  match request.action with
  | .check =>
    let settings ← loadSettings libraries fs request.config request.file
    readDocument fs request.file fun document => pure (check settings request.file document)
  | .outline json => readDocument fs request.file fun document => pure (outline json document)
  | .parse json => readDocument fs request.file fun document => pure (list json document)
  | .toXml target =>
    let settings ← loadSettings libraries fs request.config request.file
    readDocument fs request.file (exportDocument fs settings target request.file)

def Libraries.run (args : List String) : m Outcome := do
  match libraries.request args with
  | .error outcome => return outcome
  | .ok request => perform libraries fs request

end

end StructuredText.Command
