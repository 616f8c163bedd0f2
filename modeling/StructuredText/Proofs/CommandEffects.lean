import StructuredText.Command.Action
import StructuredText.Proofs.Paths

set_option autoImplicit false

namespace StructuredText.Command

variable {σ π : Type}

structure Files (σ π : Type) where
  content? : σ → π → Option ByteArray
  locate? : σ → String → Option π

def Files.Same (files : Files σ π) (before after : σ) : Prop :=
  ∀ place, files.content? after place = files.content? before place

structure Files.Written (files : Files σ π) (before after : σ) (path text : String) (place : π) :
    Prop where
  located : files.locate? after path = some place
  content : files.content? after place = some text.toUTF8
  others : ∀ other, other ≠ place → files.content? after other = files.content? before other

namespace FileSystem

def readAs (fs : FileSystem (StateM σ)) (s : σ) (path : String) : Except FileError String :=
  ((fs.readText path).run s).1

def finds (fs : FileSystem (StateM σ)) (s : σ) (path : String) : Bool :=
  ((fs.isFile path).run s).1

def directory (fs : FileSystem (StateM σ)) (s : σ) : Option String :=
  (fs.currentDirectory.run s).1

structure Lawful (fs : FileSystem (StateM σ)) (files : Files σ π) : Prop where
  currentDirectory : ∀ s, (fs.currentDirectory.run s).2 = s
  readText : ∀ path s, ((fs.readText path).run s).2 = s
  isFile : ∀ path s, ((fs.isFile path).run s).2 = s
  -- What is read is what the file holds.
  readAs : ∀ path s text, fs.readAs s path = .ok text →
    ∃ place, files.locate? s path = some place ∧ files.content? s place = some text.toUTF8
  makeDirectories : ∀ path s, files.Same s ((fs.makeDirectories path).run s).2
  written : ∀ path text s after, (fs.writeText path text).run s = (.ok (), after) →
    ∃ place, files.Written s after path text place
  failed : ∀ path text s e after, (fs.writeText path text).run s = (.error e, after) →
    files.Same s after

end FileSystem

def configPaths (file : String) (current : Option String) : List String :=
  let both (directory : String) :=
    [Path.join directory "codefirst.toml", Path.join directory ".codefirst.toml"]
  (if Path.parent file = "" then [] else both (Path.parent file)) ++ (current.map both).getD []

/-- The configuration in effect: the one that is named, or else the first that is found. There is
none where it cannot be read or is not valid. -/
def FileSystem.configuration? (fs : FileSystem (StateM σ)) (libraries : Libraries) (s : σ)
    (request : Request) : Option ConfigFile :=
  (request.config.or ((configPaths request.file (fs.directory s)).find? (fs.finds s))).bind
    fun path =>
      match fs.readAs s path with
      | .ok text => libraries.configuration? text
      | .error _ => none

/-- The path that is written to: the one that is given, or else that of the file with another
extension. -/
def IsOutput (target : ExportRequest) (file path : String) : Prop :=
  target.output = some path ∨ target.output = none ∧
    ((∃ directory stem old, Path.Ends file.toList directory stem old ∧
        path = String.ofList (directory ++ stem) ++ ".xml") ∨
      (∀ directory stem old, ¬Path.Ends file.toList directory stem old) ∧ path = file)

def IsStem (file : String) (stem : Option String) : Prop :=
  (∃ directory name extension, Path.Ends file.toList directory name extension ∧
      stem = some (String.ofList name)) ∨
    (∀ directory name extension, ¬Path.Ends file.toList directory name extension) ∧ stem = none

def optionsInEffect (configuration : Option ConfigFile) (target : ExportRequest)
    (stem : Option String) : PlcOpen.Options :=
  let configured := (configuration.map ConfigFile.exported).getD {}
  { companyName := configured.companyName
    productName := target.productName.getD configured.productName
    productVersion := configured.productVersion
    projectName := configured.projectName.or stem
    nameSpace := configured.nameSpace
    indent :=
      (target.indent.map fun width => String.ofList (List.replicate width ' ')).getD
        configured.indent }

inductive Course (libraries : Libraries) (fs : FileSystem (StateM σ)) (files : Files σ π)
    (before : σ) (request : Request) : Nat → σ → Prop where
  | unreadable {e : FileError} (read : fs.readAs before request.file = .error e) :
    Course libraries fs files before request 1 before
  | checked {source : String} (read : fs.readAs before request.file = .ok source)
    (action : request.action = .check) :
    Course libraries fs files before request
      (if (parse source).diagnostics ≠ [] ∧
        (Settings.ofFile (fs.configuration? libraries before request)).failOnErrors then 2 else 0)
      before
  | shown {source : String} (read : fs.readAs before request.file = .ok source)
    (action : ∃ json, request.action = .outline json ∨ request.action = .parse json) :
    Course libraries fs files before request 0 before
  | refused {target : ExportRequest} {source : String}
    (read : fs.readAs before request.file = .ok source) (action : request.action = .toXml target)
    (refused : (parse source).diagnostics ≠ [] ∧ target.force = false) :
    Course libraries fs files before request 1 before
  -- No directory could be made for the output, or nothing could be written there.
  | failed {target : ExportRequest} {source : String} {after : σ}
    (read : fs.readAs before request.file = .ok source) (action : request.action = .toXml target)
    (allowed : (parse source).diagnostics = [] ∨ target.force = true)
    (same : files.Same before after) : Course libraries fs files before request 1 after
  | exported {target : ExportRequest} {source : String} {after : σ} {place : π}
    (read : fs.readAs before request.file = .ok source) (action : request.action = .toXml target)
    (allowed : (parse source).diagnostics = [] ∨ target.force = true)
    (written : files.Written before after (outputPath target request.file)
      (PlcOpen.toXml (parse source) (exportOptions
        (.ofFile (fs.configuration? libraries before request)) target request.file)) place) :
    Course libraries fs files before request 0 after

structure Effects (libraries : Libraries) (fs : FileSystem (StateM σ)) (files : Files σ π)
    (request : Request) (before : σ) (exit : Nat) (after : σ) : Prop where
  -- Only an export changes a file, only the one it writes to, and only if it may write.
  changes : ∀ place, files.content? after place ≠ files.content? before place →
    ∃ target source path, request.action = .toXml target ∧ IsOutput target request.file path ∧
      files.locate? after path = some place ∧ fs.readAs before request.file = .ok source ∧
      ((parse source).diagnostics = [] ∨ target.force = true)
  failed : exit ≠ 0 → files.Same before after
  diagnosed : exit = 2 ↔ request.action = .check ∧ ∃ source,
    fs.readAs before request.file = .ok source ∧ (parse source).diagnostics ≠ [] ∧
      ∀ file, fs.configuration? libraries before request = some file →
        file.failOnErrors ≠ some false
  exported : ∀ target, request.action = .toXml target → exit = 0 → ∃ source path place stem,
    fs.readAs before request.file = .ok source ∧ IsOutput target request.file path ∧
      IsStem request.file stem ∧ files.locate? after path = some place ∧
      files.content? after place = some (PlcOpen.toXml (parse source)
        (optionsInEffect (fs.configuration? libraries before request) target stem)).toUTF8

theorem isOutput_iff (target : ExportRequest) (file path : String) :
    IsOutput target file path ↔ path = outputPath target file := by
  unfold IsOutput outputPath
  cases target.output with
  | some given => simp [eq_comm]
  | none =>
    rcases Path.ends_or_nameless file with ⟨directory, stem, old, ends⟩ | ⟨noStem, unchanged⟩
    · have value := Path.withExtension_of_ends ends "xml"
      constructor
      · rintro (other | ⟨-, ⟨directory, stem, old, ends, rfl⟩ | ⟨nameless, -⟩⟩)
        · cases other
        · simp [Path.withExtension_of_ends ends, String.append_assoc]
        · exact absurd ends (nameless _ _ _)
      · rintro rfl
        refine .inr ⟨rfl, .inl ⟨directory, stem, old, ends, ?_⟩⟩
        simp [value, String.append_assoc]
    · have nameless : ∀ directory stem old, ¬Path.Ends file.toList directory stem old := by
        intro directory stem old ends
        rw [Path.fileStem?_of_ends ends] at noStem
        cases noStem
      simp [nameless, unchanged]

theorem isStem_iff (file : String) (stem : Option String) :
    IsStem file stem ↔ stem = Path.fileStem? file := by
  unfold IsStem
  rcases Path.ends_or_nameless file with ⟨directory, name, extension, ends⟩ | ⟨noStem, -⟩
  · rw [Path.fileStem?_of_ends ends]
    constructor
    · rintro (⟨directory, other, extension, also, rfl⟩ | ⟨nameless, -⟩)
      · rw [← Path.fileStem?_of_ends also, Path.fileStem?_of_ends ends]
      · exact absurd ends (nameless _ _ _)
    · rintro rfl
      exact .inl ⟨directory, name, extension, ends, rfl⟩
  · have nameless : ∀ directory name extension,
        ¬Path.Ends file.toList directory name extension := by
      intro directory name extension ends
      rw [Path.fileStem?_of_ends ends] at noStem
      cases noStem
    simp [nameless, noStem]

theorem exportOptions_eq (configuration : Option ConfigFile) (target : ExportRequest)
    (file : String) :
    exportOptions (.ofFile configuration) target file =
      optionsInEffect configuration target (Path.fileStem? file) := by
  obtain ⟨output, indent, productName, force⟩ := target
  cases configuration <;> cases indent <;> rfl

theorem failOnErrors_ofFile (configuration : Option ConfigFile) :
    (Settings.ofFile configuration).failOnErrors = true ↔
      ∀ file, configuration = some file → file.failOnErrors ≠ some false := by
  cases configuration with
  | none => simp [Settings.ofFile]
  | some file =>
    simp only [Settings.ofFile, Option.some.injEq, forall_eq']
    rcases file.failOnErrors with _ | _ | _ <;> simp

theorem Files.Same.refl (files : Files σ π) (s : σ) : files.Same s s :=
  fun _ => rfl

theorem Files.Same.trans {files : Files σ π} {first second third : σ}
    (before : files.Same first second) (after : files.Same second third) :
    files.Same first third :=
  fun place => (after place).trans (before place)

theorem Files.Written.of_same {files : Files σ π} {first before after : σ} {path text : String}
    {place : π} (same : files.Same first before)
    (written : files.Written before after path text place) :
    files.Written first after path text place :=
  { written with others := fun other isOther => (written.others other isOther).trans (same other) }

namespace Course

variable {libraries : Libraries} {fs : FileSystem (StateM σ)} {files : Files σ π}
  {before after : σ} {request : Request} {exit : Nat}

theorem changes (course : Course libraries fs files before request exit after) (place : π)
    (changed : files.content? after place ≠ files.content? before place) :
    ∃ target source path, request.action = .toXml target ∧ IsOutput target request.file path ∧
      files.locate? after path = some place ∧ fs.readAs before request.file = .ok source ∧
      ((parse source).diagnostics = [] ∨ target.force = true) := by
  cases course with
  | unreadable | checked | shown | refused => exact absurd rfl changed
  | failed read action allowed same => exact absurd (same place) changed
  | exported read action allowed written =>
    obtain rfl := Classical.byContradiction fun other => changed (written.others place other)
    exact ⟨_, _, _, action, (isOutput_iff ..).mpr rfl, written.located, read, allowed⟩

theorem same_of_failed (course : Course libraries fs files before request exit after)
    (failed : exit ≠ 0) : files.Same before after := by
  cases course with
  | unreadable | checked | shown | refused => exact .refl files before
  | failed read action allowed same => exact same
  | exported => exact absurd rfl failed

theorem diagnosed (course : Course libraries fs files before request exit after) :
    exit = 2 ↔ request.action = .check ∧ ∃ source,
      fs.readAs before request.file = .ok source ∧ (parse source).diagnostics ≠ [] ∧
        ∀ file, fs.configuration? libraries before request = some file →
          file.failOnErrors ≠ some false := by
  simp only [← failOnErrors_ofFile]
  have notRead {e : FileError} (read : fs.readAs before request.file = .error e) (source : String) :
      fs.readAs before request.file ≠ .ok source := by
    rw [read]
    exact nofun
  cases course with
  | unreadable read => simp [notRead read]
  | checked read action => simp [read, action]
  | shown read action =>
    obtain ⟨json, action | action⟩ := action <;> simp [action]
  | refused read action | failed read action | exported read action => simp [action]

theorem output_of_exported (course : Course libraries fs files before request exit after)
    {target : ExportRequest} (action : request.action = .toXml target) (exported : exit = 0) :
    ∃ source path place stem, fs.readAs before request.file = .ok source ∧
      IsOutput target request.file path ∧ IsStem request.file stem ∧
      files.locate? after path = some place ∧
      files.content? after place = some (PlcOpen.toXml (parse source)
        (optionsInEffect (fs.configuration? libraries before request) target stem)).toUTF8 := by
  cases course with
  | unreadable | refused | failed => cases exported
  | checked read other => simp [action] at other
  | shown read other => simp [action] at other
  | exported read isExport allowed written =>
    rw [action] at isExport
    cases isExport
    have content := written.content
    rw [exportOptions_eq] at content
    exact ⟨_, _, _, _, read, (isOutput_iff ..).mpr rfl, (isStem_iff ..).mpr rfl, written.located,
      content⟩

theorem effects (course : Course libraries fs files before request exit after) :
    Effects libraries fs files request before exit after where
  changes := course.changes
  failed := course.same_of_failed
  diagnosed := course.diagnosed
  exported _ := course.output_of_exported

end Course

theorem exit_check (settings : Settings) (file : String) (document : Document) :
    (check settings file document).exit =
      if document.diagnostics ≠ [] ∧ settings.failOnErrors then 2 else 0 := by
  unfold check Document.isOk
  cases document.diagnostics <;> simp

theorem run_bind {α β : Type} {action : StateM σ α} {a : α} {before after : σ}
    (ran : action.run before = (a, after)) (next : α → StateM σ β) :
    (action >>= next).run before = (next a).run after := by
  rw [StateT.run_bind, ran]
  rfl

section Run

variable (libraries : Libraries) {fs : FileSystem (StateM σ)} {files : Files σ π}
  (lawful : fs.Lawful files) (s : σ)

include lawful

theorem readText_run (path : String) : (fs.readText path).run s = (fs.readAs s path, s) :=
  Prod.ext rfl (lawful.readText path s)

theorem isFile_run (path : String) : (fs.isFile path).run s = (fs.finds s path, s) :=
  Prod.ext rfl (lawful.isFile path s)

theorem findM?_run (paths : List String) :
    (paths.findM? fs.isFile).run s = (paths.find? (fs.finds s), s) := by
  induction paths with
  | nil => rfl
  | cons path paths ih =>
    rw [List.findM?, run_bind (isFile_run lawful s path), List.find?_cons]
    cases fs.finds s path with
    | true => rfl
    | false => exact ih

theorem currentDirectory_run : fs.currentDirectory.run s = (fs.directory s, s) :=
  Prod.ext rfl (lawful.currentDirectory s)

theorem findConfig_run (file : String) :
    (findConfig fs file).run s =
      ((configPaths file (fs.directory s)).find? (fs.finds s), s) := by
  have candidates (current : Option String) :
      (((if Path.parent file = "" then [] else [Path.parent file]) ++ current.toList).flatMap
        fun directory => configNames.map (Path.join directory)) = configPaths file current := by
    cases current <;> simp only [configPaths] <;> split <;> simp [configNames]
  rw [findConfig, run_bind (currentDirectory_run lawful s), findM?_run lawful, candidates]

theorem loadSettings_run (request : Request) :
    (loadSettings libraries fs request.config request.file).run s =
      (.ofFile (fs.configuration? libraries s request), s) := by
  have read (path : String) (next : Except FileError String → StateM σ Settings)
      (known : ∀ text, next (.ok text) = pure (.ofFile (libraries.configuration? text)))
      (unknown : ∀ e, next (.error e) = pure {}) :
      (fs.readText path >>= next).run s =
        (.ofFile (match fs.readAs s path with
          | .ok text => libraries.configuration? text
          | .error _ => none), s) := by
    rw [run_bind (readText_run lawful s path)]
    cases fs.readAs s path with
    | ok text =>
      rw [known]
      rfl
    | error e =>
      rw [unknown]
      rfl
  simp only [loadSettings, FileSystem.configuration?]
  cases request.config with
  | some path =>
    simp only [pure_bind]
    exact read path _ (fun _ => rfl) (fun _ => rfl)
  | none =>
    simp only [Option.none_or]
    rw [run_bind (findConfig_run lawful s request.file)]
    cases (configPaths request.file (fs.directory s)).find? (fs.finds s) with
    | none => rfl
    | some path => exact read path _ (fun _ => rfl) (fun _ => rfl)

theorem writeExport_run (options : PlcOpen.Options) (output printed : String)
    (document : Document) :
    ∃ outcome after, (writeExport fs options output printed document).run s = (outcome, after) ∧
      (outcome.exit = 1 ∧ files.Same s after ∨
        outcome.exit = 0 ∧ ∃ place,
          files.Written s after output (PlcOpen.toXml document options) place) := by
  have write (between : σ) (same : files.Same s between)
      (next : Except FileError Unit → StateM σ Outcome)
      (failed : ∀ e, ∃ outcome, next (.error e) = pure outcome ∧ outcome.exit = 1)
      (done : ∃ outcome, next (.ok ()) = pure outcome ∧ outcome.exit = 0) :
      ∃ outcome after,
        (fs.writeText output (PlcOpen.toXml document options) >>= next).run between =
            (outcome, after) ∧
          (outcome.exit = 1 ∧ files.Same s after ∨
            outcome.exit = 0 ∧ ∃ place,
              files.Written s after output (PlcOpen.toXml document options) place) := by
    obtain ⟨result, after, wrote⟩ : ∃ result after,
        (fs.writeText output (PlcOpen.toXml document options)).run between = (result, after) :=
      ⟨_, _, rfl⟩
    rw [run_bind wrote]
    cases result with
    | error e =>
      obtain ⟨outcome, isOutcome, exit⟩ := failed e
      rw [isOutcome]
      exact ⟨outcome, after, rfl, .inl ⟨exit, same.trans (lawful.failed _ _ _ e _ wrote)⟩⟩
    | ok =>
      obtain ⟨outcome, isOutcome, exit⟩ := done
      obtain ⟨place, written⟩ := lawful.written _ _ _ _ wrote
      rw [isOutcome]
      exact ⟨outcome, after, rfl, .inr ⟨exit, place, written.of_same same⟩⟩
  simp only [writeExport]
  split
  · simp only [pure_bind]
    exact write s (.refl files s) _ (fun _ => ⟨_, rfl, rfl⟩) ⟨_, rfl, rfl⟩
  · have same := lawful.makeDirectories (Path.parent output) s
    obtain ⟨made, between, ran⟩ : ∃ made between,
        (fs.makeDirectories (Path.parent output)).run s = (made, between) := ⟨_, _, rfl⟩
    rw [ran] at same
    rw [run_bind ran]
    cases made with
    | error e => exact ⟨_, between, rfl, .inl ⟨rfl, same⟩⟩
    | ok => exact write between same _ (fun _ => ⟨_, rfl, rfl⟩) ⟨_, rfl, rfl⟩

theorem exportDocument_course {request : Request} {target : ExportRequest} {source : String}
    (read : fs.readAs s request.file = .ok source) (action : request.action = .toXml target) :
    ∃ outcome after,
      (exportDocument fs (.ofFile (fs.configuration? libraries s request)) target request.file
          (parse source)).run s = (outcome, after) ∧
        Course libraries fs files s request outcome.exit after := by
  simp only [exportDocument]
  split
  · rename_i permitted
    have allowed : (parse source).diagnostics = [] ∨ target.force = true := by
      simpa [Document.isOk] using permitted
    obtain ⟨outcome, after, ran, ⟨exit, same⟩ | ⟨exit, place, written⟩⟩ :=
      writeExport_run lawful s
        (exportOptions (.ofFile (fs.configuration? libraries s request)) target request.file)
        (outputPath target request.file) (diagnosticLines request.file (parse source))
        (parse source)
    · exact ⟨outcome, after, ran, exit ▸ .failed read action allowed same⟩
    · exact ⟨outcome, after, ran, exit ▸ .exported read action allowed written⟩
  · rename_i refused
    have refused : (parse source).diagnostics ≠ [] ∧ target.force = false := by
      simpa [Document.isOk] using refused
    exact ⟨_, s, rfl, .refused read action refused⟩

theorem readDocument_run {request : Request} {next : Document → StateM σ Outcome}
    (follows : ∀ source, fs.readAs s request.file = .ok source →
      ∃ outcome after, (next (parse source)).run s = (outcome, after) ∧
        Course libraries fs files s request outcome.exit after) :
    ∃ outcome after, (readDocument fs request.file next).run s = (outcome, after) ∧
      Course libraries fs files s request outcome.exit after := by
  rw [readDocument, run_bind (readText_run lawful s request.file)]
  cases read : fs.readAs s request.file with
  | error e => exact ⟨_, s, rfl, .unreadable read⟩
  | ok source => exact follows source read

theorem run_course {args : List String} {request : Request}
    (accepted : libraries.request args = .ok request) :
    ∃ outcome after, (libraries.run fs args).run s = (outcome, after) ∧
      Course libraries fs files s request outcome.exit after := by
  have loaded := loadSettings_run libraries lawful s request
  simp only [Libraries.run, accepted, perform]
  cases action : request.action with
  | check =>
    simp only [run_bind loaded]
    refine readDocument_run libraries lawful s fun source read => ⟨_, s, rfl, ?_⟩
    rw [exit_check]
    exact .checked read action
  | outline json =>
    refine readDocument_run libraries lawful s fun source read => ⟨_, s, rfl, ?_⟩
    have shown : (outline json (parse source)).exit = 0 := by cases json <;> rfl
    rw [shown]
    exact .shown read ⟨json, .inl action⟩
  | parse json =>
    exact readDocument_run libraries lawful s fun source read =>
      ⟨_, s, rfl, .shown read ⟨json, .inr action⟩⟩
  | toXml target =>
    simp only [run_bind loaded]
    exact readDocument_run libraries lawful s fun source read =>
      exportDocument_course libraries lawful s read action

end Run

theorem run_effects (libraries : Libraries) {fs : FileSystem (StateM σ)} {files : Files σ π}
    (lawful : fs.Lawful files) {args : List String} {request : Request}
    (accepted : libraries.request args = .ok request) (before : σ) :
    ∃ outcome after, (libraries.run fs args).run before = (outcome, after) ∧
      Effects libraries fs files request before outcome.exit after := by
  obtain ⟨outcome, after, ran, course⟩ := run_course libraries lawful before accepted
  exact ⟨outcome, after, ran, course.effects⟩

end StructuredText.Command
