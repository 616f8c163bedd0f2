import StructuredText.Command.Run
import StructuredText.Proofs.CommandEffects

set_option autoImplicit false

namespace StructuredText.Command

namespace FileTree

variable {tree next : FileTree}

def view : Files FileTree Place where
  content? := content?
  locate? tree path := (tree.locate path).toOption

theorem lookup_filter_ne {place other : Place} (isOther : other ≠ place)
    (files : List (Place × ByteArray)) :
    (files.filter fun file => file.1 != place).lookup other = files.lookup other := by
  induction files with
  | nil => rfl
  | cons file files ih =>
    obtain ⟨first, bytes⟩ := file
    by_cases same : first = place
    · subst same
      have skipped : (other == first) = false := by simpa using isOther
      simpa [List.lookup_cons, skipped] using ih
    · cases found : other == first <;> simp [List.lookup_cons, same, found, ih]

theorem content?_setContent (place : Place) (bytes : ByteArray) :
    (tree.setContent place bytes).content? place = some bytes := by
  simp [setContent, content?]

theorem content?_setContent_ne {place other : Place} (isOther : other ≠ place)
    (bytes : ByteArray) : (tree.setContent place bytes).content? other = tree.content? other := by
  have skipped : (other == place) = false := by simpa using isOther
  simp only [setContent, content?, List.lookup_cons, skipped]
  exact lookup_filter_ne isOther tree.files

-- A file that is written stays a file, so that what was a directory above it still is one.
theorem isDirectory_setContent {place : Place} (bytes : ByteArray) {directory : Place}
    (isDirectory : tree.isDirectory directory = true) :
    (tree.setContent place bytes).isDirectory directory = true := by
  simp only [FileTree.isDirectory, setContent, Bool.or_eq_true, List.any_cons, List.any_eq_true,
    List.mem_filter] at isDirectory ⊢
  rcases isDirectory with listed | ⟨file, isFile, above⟩
  · exact .inl listed
  · by_cases same : file.1 = place
    · subst same
      exact .inr (.inl above)
    · exact .inr (.inr ⟨file, ⟨isFile, by simpa using same⟩, above⟩)

theorem walk_append (kept : ∀ place, tree.isDirectory place = true →
      next.isDirectory place = true) {parts : List String} {start place : Place}
    (found : tree.walk parts start = .ok place) (more : List String) :
    next.walk (parts ++ more) start = next.walk more place := by
  -- Each part is found below a directory, and that one is still there.
  induction parts generalizing start with
  | nil =>
    obtain rfl : start = place := by simpa [walk] using found
    rfl
  | cons part parts ih =>
    rw [List.cons_append, walk]
    rw [walk] at found
    split at found
    · cases found
    · rename_i isDirectory
      rw [if_neg (by simpa using kept start (by simpa using isDirectory))]
      split at found
      · rename_i nothing
        rw [if_pos nothing]
        exact ih found
      · rename_i something
        rw [if_neg something]
        split at found
        · rename_i isUp
          rw [if_pos isUp]
          split at found
          · cases found
          · rename_i below
            rw [if_neg below]
            exact ih found
        · rename_i isName
          rw [if_neg isName]
          exact ih found

theorem walk_name {name : String} {place : Place} (isDirectory : tree.isDirectory place = true)
    (isName : isDots name = false) : tree.walk [name] place = .ok (place ++ [name]) := by
  simp only [isDots, Bool.or_eq_false_iff, beq_eq_false_iff_ne] at isName
  simp [walk, isDirectory, isName]

theorem locateParent_eq_ok {parts : List String} {place : Place} {name : String}
    (found : tree.locateParent parts = .ok (place, name)) :
    tree.walk parts.dropLast [] = .ok place ∧ tree.isDirectory place = true ∧
      name = parts.getLast?.getD "" := by
  unfold locateParent at found
  cases walked : tree.walk parts.dropLast [] with
  | error e => simp [walked, bind, Except.bind] at found
  | ok start =>
    simp only [walked, bind, Except.bind] at found
    split at found
    · rename_i isDirectory
      cases found
      exact ⟨rfl, isDirectory, rfl⟩
    · cases found

theorem written_writeText {path text : String} (wrote : tree.writeText path text = .ok next) :
    ∃ place, view.Written tree next path text place := by
  unfold writeText at wrote
  split at wrote
  · cases wrote
  · rename_i relative
    simp only [bind, Except.bind] at wrote
    split at wrote
    · cases wrote
    · rename_i parent found
      obtain ⟨place, name⟩ := parent
      split at wrote
      · cases wrote
      · rename_i fits
        cases wrote
        simp only [Bool.or_eq_true, bne_iff_ne, ne_eq, not_or, Bool.not_eq_true,
          Decidable.not_not] at fits
        obtain ⟨⟨isName, whole⟩, -⟩ := fits
        rw [whole] at found
        obtain ⟨walked, isDirectory, isLast⟩ := locateParent_eq_ok found
        have kept (other : Place) (before : tree.isDirectory other = true) :
            (tree.setContent (place ++ [name]) text.toUTF8).isDirectory other = true :=
          isDirectory_setContent _ before
        have parts : pathParts path = (pathParts path).dropLast ++ [name] := by
          rcases List.eq_nil_or_concat (pathParts path) with none | ⟨before, last, shape⟩
          · simp [isLast, none, isDots] at isName
          · simp [isLast, shape]
        have located : (tree.setContent (place ++ [name]) text.toUTF8).walk (pathParts path) [] =
            .ok (place ++ [name]) := by
          rw [parts, walk_append kept walked, walk_name (kept place isDirectory) isName]
        refine ⟨place ++ [name], ?_, content?_setContent .., ?_⟩
        · simp only [view, locate, if_neg relative, located]
          rfl
        · exact fun other isOther => content?_setContent_ne isOther _

theorem files_makeDirectory {parts : List String} (made : tree.makeDirectory parts = .ok next) :
    next.files = tree.files := by
  unfold makeDirectory at made
  simp only [bind, Except.bind] at made
  split at made
  · cases made
  · split at made
    · cases made
    · cases made
      rfl

theorem files_make {parts : List String}
    (made : (match tree.makeDirectory parts with
      | .ok tree => .ok tree
      | .error e =>
        match tree.walk parts [] with
        | .ok place => if tree.isDirectory place then .ok tree else .error e
        | .error _ => .error e : Except FileError FileTree) = .ok next) :
    next.files = tree.files := by
  split at made
  · rename_i one
    cases made
    exact files_makeDirectory one
  · split at made
    · split at made
      · cases made
        rfl
      · cases made
    · cases made

theorem files_makeDirectories {parts : List String} (made : tree.makeDirectories parts = .ok next) :
    next.files = tree.files := by
  induction parts generalizing next with
  | nil =>
    cases made
    rfl
  | cons part above ih =>
    rw [makeDirectories] at made
    split at made
    · rename_i one
      cases made
      exact files_make one
    · cases built : tree.makeDirectories above with
      | error e => simp [built, Except.bind] at made
      | ok between =>
        rw [built] at made
        exact (files_make made).trans (ih built)
    · cases made

theorem makeDirectories_run (path : String) :
    (fileSystem.makeDirectories path).run tree =
      if path.toList.head? = some '/' then
        (if dropTrailing (pathParts path) = [""] then .ok () else .error .notFound, tree)
      else
        match tree.makeDirectories (dropTrailing (pathParts path)).reverse with
        | .ok next => (.ok (), next)
        | .error e => (.error e, tree) := by
  have current : (get : StateM FileTree FileTree).run tree = (tree, tree) := rfl
  simp only [fileSystem]
  split
  · rfl
  · rw [run_bind current]
    cases tree.makeDirectories (dropTrailing (pathParts path)).reverse <;> rfl

theorem writeText_run (path text : String) :
    (fileSystem.writeText path text).run tree =
      match tree.writeText path text with
      | .ok next => (.ok (), next)
      | .error e => (.error e, tree) := by
  have current : (get : StateM FileTree FileTree).run tree = (tree, tree) := rfl
  simp only [fileSystem]
  rw [run_bind current]
  cases tree.writeText path text <;> rfl

theorem toUTF8_of_fromUTF8? {bytes : ByteArray} {text : String}
    (isText : String.fromUTF8? bytes = some text) : bytes = text.toUTF8 := by
  unfold String.fromUTF8? at isText
  split at isText
  · cases isText
    rfl
  · cases isText

theorem content_of_readText {path text : String} (read : tree.readText path = .ok text) :
    ∃ place, tree.locate path = .ok place ∧ tree.content? place = some text.toUTF8 := by
  unfold FileTree.readText at read
  cases found : tree.locate path with
  | error e => simp [found, bind, Except.bind] at read
  | ok place =>
    simp only [found, bind, Except.bind] at read
    split at read
    · rename_i bytes content
      split at read
      · rename_i decoded isText
        cases read
        exact ⟨place, rfl, by rw [content, toUTF8_of_fromUTF8? isText]⟩
      · cases read
    · cases read

theorem lawful : fileSystem.Lawful view where
  currentDirectory _ := rfl
  readText _ _ := rfl
  isFile _ _ := rfl
  readAs := by
    intro path tree text read
    obtain ⟨place, found, content⟩ := content_of_readText read
    exact ⟨place, by simp [view, found, Except.toOption], content⟩
  makeDirectories := by
    intro path tree place
    have made : ((fileSystem.makeDirectories path).run tree).2.files = tree.files := by
      rw [makeDirectories_run]
      split
      · rfl
      · split
        · rename_i next made
          exact files_makeDirectories made
        · rfl
    exact congrArg (List.lookup place) made
  written := by
    intro path text tree after wrote
    rw [writeText_run] at wrote
    split at wrote
    · rename_i next result
      cases wrote
      exact written_writeText result
    · cases wrote
  failed := by
    intro path text tree e after wrote
    rw [writeText_run] at wrote
    split at wrote
    · cases wrote
    · cases wrote
      exact .refl view tree

end FileTree

def brokenProject : FileTree where
  files :=
    [(["main.st"], "PROGRAM P\nx := 1\nEND_PROGRAM\n".toUTF8),
      (["codefirst.toml"], "[check]\nfail_on_errors = false\n".toUTF8)]

def forcedExport : Request where
  action :=
    .toXml { output := some "out/p.xml", indent := none, productName := none, force := true }
  file := "main.st"
  config := none

def forcedArgs : List String :=
  ["export", "main.st", "-o", "out/p.xml", "--force"]

theorem run_effects_brokenProject :
    installed.request forcedArgs = .ok forcedExport ∧
      ∃ outcome after,
        (installed.run FileTree.fileSystem forcedArgs).run brokenProject = (outcome, after) ∧
          Effects installed FileTree.fileSystem FileTree.view forcedExport brokenProject
            outcome.exit after := by
  have reads : (installed.request forcedArgs).toOption = some forcedExport := by decide +kernel
  have accepted : installed.request forcedArgs = .ok forcedExport := by
    cases parsed : installed.request forcedArgs with
    | error outcome =>
      rw [parsed] at reads
      cases reads
    | ok request =>
      rw [parsed] at reads
      exact congrArg Except.ok (Option.some.inj reads)
  exact ⟨accepted, run_effects installed FileTree.lawful accepted brokenProject⟩

example : (brokenProject.run forcedArgs).1.exit = 0 := by
  decide +kernel

example : (brokenProject.run ["check", "main.st"]).1.exit = 0 := by
  decide +kernel

end StructuredText.Command
