import Mathlib.Data.List.Basic
import StructuredText.Command.Path

set_option autoImplicit false

namespace StructuredText.Command.Path

inductive Behind : List Char → Prop where
  | nil : Behind []
  | slash {rest : List Char} (behind : Behind rest) : Behind ('/' :: rest)
  | dot {rest : List Char} (behind : Behind rest) : Behind ('/' :: '.' :: rest)

structure Ends (path directory stem extension : List Char) : Prop where
  whole : ∃ behind, Behind behind ∧ path = directory ++ (stem ++ extension) ++ behind
  directory : ∀ c ∈ directory.getLast?, c = '/'
  noSlash : '/' ∉ stem ++ extension
  nonempty : stem ≠ []
  noDots : stem ++ extension ≠ ['.'] ∧ stem ++ extension ≠ ['.', '.']
  -- The extension begins at the last dot, unless that dot begins the name.
  atLastDot : extension = [] ∧ '.' ∉ stem.tail ∨ ∃ rest, extension = '.' :: rest ∧ '.' ∉ rest

theorem Behind.append {s t : List Char} (first : Behind s) (second : Behind t) :
    Behind (s ++ t) := by
  induction first with
  | nil => exact second
  | slash behind ih => exact .slash ih
  | dot behind ih => exact .dot ih

theorem dropBehind_append {behind : List Char} (isBehind : Behind behind) (s : List Char) :
    dropBehind (behind.reverse ++ s) = dropBehind s := by
  induction isBehind generalizing s with
  | nil => rfl
  | slash behind ih =>
    rw [List.reverse_cons, List.append_assoc, ih]
    rfl
  | dot behind ih =>
    rw [List.reverse_cons, List.reverse_cons, List.append_assoc, List.append_assoc, ih]
    rfl

theorem exists_behind (s : List Char) :
    ∃ behind, Behind behind ∧ s = behind.reverse ++ dropBehind s := by
  fun_induction dropBehind s with
  | case1 rest ih =>
    obtain ⟨behind, isBehind, split⟩ := ih
    refine ⟨behind ++ ['/'], isBehind.append (.slash .nil), ?_⟩
    rw [List.reverse_concat, List.cons_append, ← split]
  | case2 rest ih =>
    obtain ⟨behind, isBehind, split⟩ := ih
    refine ⟨behind ++ ['/', '.'], isBehind.append (.dot .nil), ?_⟩
    rw [List.reverse_append, List.append_assoc, ← split]
    rfl
  | case3 path => exact ⟨[], .nil, rfl⟩

theorem dropBehind_name {part : List Char} (noSlash : '/' ∉ part) (nonempty : part ≠ [])
    (noDot : part ≠ ['.']) (s : List Char) :
    dropBehind (part.reverse ++ s) = part.reverse ++ s := by
  rcases List.eq_nil_or_concat part with rfl | ⟨before, last, rfl⟩
  · exact absurd rfl nonempty
  · rw [List.concat_eq_append] at noSlash noDot ⊢
    rw [List.reverse_concat, List.cons_append]
    rw [dropBehind]
    · intro rest shape
      simp [(List.cons.inj shape).1] at noSlash
    · intro rest shape
      obtain ⟨rfl, others⟩ := List.cons.inj shape
      rcases List.eq_nil_or_concat before with rfl | ⟨init, other, rfl⟩
      · exact noDot rfl
      · rw [List.concat_eq_append, List.reverse_concat, List.cons_append] at others
        simp [(List.cons.inj others).1] at noSlash

theorem split_eq {directory part behind : List Char} (isBehind : Behind behind)
    (ends : ∀ c ∈ directory.getLast?, c = '/') (noSlash : '/' ∉ part) (nonempty : part ≠ [])
    (noDot : part ≠ ['.']) : split (directory ++ part ++ behind) = (directory, part) := by
  have inside : ∀ c ∈ part.reverse, (c != '/') = true := by
    intro c member
    rw [bne_iff_ne]
    rintro rfl
    exact noSlash (List.mem_reverse.mp member)
  have stops : directory.reverse.takeWhile (· != '/') = [] ∧
      directory.reverse.dropWhile (· != '/') = directory.reverse := by
    rcases List.eq_nil_or_concat directory with rfl | ⟨before, last, rfl⟩
    · exact ⟨rfl, rfl⟩
    · obtain rfl : last = '/' := ends last (by simp)
      simp
  rw [split, List.reverse_append, dropBehind_append isBehind, List.reverse_append,
    dropBehind_name noSlash nonempty noDot]
  simp only [List.takeWhile_append_of_pos inside, List.dropWhile_append_of_pos inside, stops]
  simp

theorem stem_append {stem extension : List Char} (nonempty : stem ≠ [])
    (atLastDot : extension = [] ∧ '.' ∉ stem.tail ∨
      ∃ rest, extension = '.' :: rest ∧ '.' ∉ rest) :
    Path.stem (stem ++ extension) = stem := by
  have noDots {s : List Char} (absent : '.' ∉ s) (t : List Char) :
      (s.reverse ++ t).dropWhile (· != '.') = t.dropWhile (· != '.') := by
    refine List.dropWhile_append_of_pos ?_
    intro c member
    rw [bne_iff_ne]
    rintro rfl
    exact absent (List.mem_reverse.mp member)
  obtain ⟨first, others, rfl⟩ := List.exists_cons_of_ne_nil nonempty
  rcases atLastDot with ⟨rfl, absent⟩ | ⟨rest, rfl, absent⟩
  · rw [List.append_nil, Path.stem, List.reverse_cons, noDots (s := others) absent]
    by_cases dot : first = '.'
    · simp [dot]
    · simp [dot]
  · rw [Path.stem, List.reverse_append, List.reverse_cons, List.append_assoc, noDots absent,
      List.singleton_append, List.dropWhile_cons_of_neg (by simp)]
    rcases List.exists_cons_of_ne_nil (List.reverse_ne_nil_iff.mpr nonempty) with ⟨c, before, shape⟩
    rw [shape]
    exact (congrArg List.reverse shape).symm.trans (List.reverse_reverse _)

namespace Ends

variable {path directory stem extension : List Char} (ends : Ends path directory stem extension)

include ends

theorem split_eq : split path = (directory, stem ++ extension) := by
  obtain ⟨behind, isBehind, rfl⟩ := ends.whole
  exact Path.split_eq isBehind ends.directory ends.noSlash (by simp [ends.nonempty]) ends.noDots.1

theorem isName : isName (stem ++ extension) = true := by
  simp [Path.isName, ends.nonempty, ends.noDots]

end Ends

theorem exists_extension {name : List Char} (nonempty : name ≠ []) :
    ∃ extension, name = stem name ++ extension ∧ stem name ≠ [] ∧
      (extension = [] ∧ '.' ∉ (stem name).tail ∨
        ∃ rest, extension = '.' :: rest ∧ '.' ∉ rest) := by
  have parts := List.takeWhile_append_dropWhile (p := (· != '.')) (l := name.reverse)
  have absent : '.' ∉ name.reverse.takeWhile (· != '.') := by
    intro member
    simpa using List.all_eq_true.mp List.all_takeWhile _ member
  rw [stem]
  generalize name.reverse.takeWhile (· != '.') = taken at parts absent
  split
  · rename_i c before shape
    rw [shape] at parts
    refine ⟨'.' :: taken.reverse, ?_, by simp, .inr ⟨_, rfl, by simpa using absent⟩⟩
    rw [← List.reverse_inj, ← parts]
    simp
  · rename_i noStem
    refine ⟨[], (List.append_nil name).symm, nonempty, .inl ⟨rfl, ?_⟩⟩
    cases rest : name.reverse.dropWhile (· != '.') with
    | nil =>
      rw [rest, List.append_nil] at parts
      intro member
      rw [parts] at absent
      exact absent (List.mem_reverse.mpr (List.mem_of_mem_tail member))
    | cons dot others =>
      have isDot : dot = '.' := by
        have stops := List.head?_dropWhile_not (· != '.') name.reverse
        simpa [rest] using stops
      subst isDot
      obtain rfl : others = [] := by
        cases others with
        | nil => rfl
        | cons c before => exact absurd rest (noStem c before)
      have isName : name = '.' :: taken.reverse := by
        rw [rest] at parts
        rw [← List.reverse_inj, ← parts]
        simp
      rw [isName, List.tail_cons]
      simpa using absent

theorem ends_of_isName {path : List Char} (named : isName (split path).2 = true) :
    ∃ extension, Ends path (split path).1 (stem (split path).2) extension := by
  obtain ⟨behind, isBehind, shape⟩ := exists_behind path.reverse
  have parts : path = (split path).1 ++ (split path).2 ++ behind := by
    rw [← List.reverse_inj, shape]
    simp [split, List.takeWhile_append_dropWhile]
  simp only [isName, Bool.and_eq_true, bne_iff_ne] at named
  obtain ⟨⟨nonempty, noDot⟩, noDots⟩ := named
  obtain ⟨extension, isPart, stemmed, atLastDot⟩ := exists_extension nonempty
  refine ⟨extension, ⟨behind, isBehind, ?_⟩, ?_, ?_, stemmed, ?_, atLastDot⟩
  · rwa [← isPart]
  · intro c last
    have stops := List.head?_dropWhile_not (· != '/') (dropBehind path.reverse)
    simp only [split, List.getLast?_reverse, Option.mem_def] at last
    simpa [last] using stops
  · rw [← isPart]
    intro member
    simp only [split, List.mem_reverse] at member
    simpa using List.all_eq_true.mp List.all_takeWhile _ member
  · rw [← isPart]
    exact ⟨noDot, noDots⟩

theorem withExtension_of_ends {path : String} {directory stem old : List Char}
    (ends : Ends path.toList directory stem old) (extension : String) :
    withExtension path extension = String.ofList (directory ++ stem) ++ "." ++ extension := by
  rw [withExtension, ends.split_eq]
  simp only [ends.isName, if_true, stem_append ends.nonempty ends.atLastDot]

theorem fileStem?_of_ends {path : String} {directory stem extension : List Char}
    (ends : Ends path.toList directory stem extension) :
    fileStem? path = some (String.ofList stem) := by
  simp only [fileStem?, ends.split_eq, ends.isName, if_true,
    stem_append ends.nonempty ends.atLastDot]

theorem ends_or_nameless (path : String) :
    (∃ directory stem extension, Ends path.toList directory stem extension) ∨
      fileStem? path = none ∧ ∀ extension, withExtension path extension = path := by
  by_cases named : isName (split path.toList).2 = true
  · obtain ⟨extension, ends⟩ := ends_of_isName named
    exact .inl ⟨_, _, extension, ends⟩
  · refine .inr ⟨by simp [fileStem?, named], fun extension => ?_⟩
    simp [withExtension, named]

end StructuredText.Command.Path
