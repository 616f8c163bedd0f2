import StructuredText.Document.State
import StructuredText.Proofs.PlainLine

set_option autoImplicit false

namespace StructuredText

open Reader

def boundaryKeywords : List String :=
  headerKeywords ++ closingKeywords ++ sectionKeywords

-- A name in front of a text, if the text cannot go on with it.
theorem mem_asciiWords {word : List Char} (nonempty : word ≠ [])
    (isName : ∀ c ∈ word, isNameChar c = true) {t : List Char}
    (apart : ∀ d ∈ t.head?, isNameChar d = false) : word ∈ asciiWords (word ++ t) := by
  rw [asciiWords_append apart, asciiWords_of_name nonempty isName]
  simp

def BeginsWith (word s : List Char) : Prop :=
  ∃ rest, s = word ++ rest ∧ ∀ d ∈ rest.head?, isNameChar d = false

section BeginsWith

variable {word : List Char} (isName : ∀ c ∈ word, isNameChar c = true)

include isName

theorem BeginsWith.mem_asciiWords {s : List Char} (begins : BeginsWith word s)
    (nonempty : word ≠ []) : word ∈ asciiWords s := by
  obtain ⟨rest, rfl, apart⟩ := begins
  exact StructuredText.mem_asciiWords nonempty isName apart

theorem BeginsWith.of_append {first rest : List Char} (begins : BeginsWith word (first ++ rest))
    (apart : ∀ d ∈ rest.head?, isNameChar d = false) : BeginsWith word first := by
  obtain ⟨behind, whole, ends⟩ := begins
  rcases List.append_eq_append_iff.mp whole with ⟨more, isWord, isRest⟩ | ⟨more, isFirst, isRest⟩
  · cases more with
    | nil => exact ⟨[], by simpa using isWord.symm, by simp⟩
    | cons c more =>
      have stops := apart c (by simp [isRest])
      rw [isName c (by simp [isWord])] at stops
      cases stops
  · refine ⟨more, isFirst, fun d first => ends d ?_⟩
    rw [isRest, List.head?_append, Option.mem_def.mp first]
    rfl

end BeginsWith

theorem Reader.literal_eq_some {keyword : String} {s rest : List Char}
    (read : literal keyword s = some rest) : s = keyword.toList ++ rest := by
  simp only [literal, Option.ite_none_right_eq_some, Option.some.injEq,
    List.isPrefixOf_iff_prefix] at read
  obtain ⟨⟨after, rfl⟩, rfl⟩ := read
  simp

theorem Reader.blanks_literal {keyword : String} {s rest : List Char}
    (unbegun : ¬ BeginsWith keyword.toList s) (read : literal keyword s = some rest) :
    blanks rest = none := by
  cases rest with
  | nil => rfl
  | cons b rest =>
    have notBlank : isBlank b = false := by
      by_contra blank
      have apart : isNameChar b = false := notName_of_blank (Bool.not_eq_false _ ▸ blank)
      exact unbegun ⟨b :: rest, literal_eq_some read, by simpa using apart⟩
    simp [blanks, notBlank]

theorem isWord_of_mem {keyword : String} (member : keyword ∈ boundaryKeywords) :
    keyword.toList ≠ [] ∧ ∀ c ∈ keyword.toList, isNameChar c = true := by
  have words : (boundaryKeywords.all fun keyword =>
      !keyword.toList.isEmpty && keyword.toList.all isNameChar) = true := by decide
  simpa using List.all_eq_true.mp words keyword member

theorem trimEnd_append (s : List Char) :
    ∃ blank, s = trimEnd s ++ blank ∧ ∀ c ∈ blank, isBlank c = true := by
  refine ⟨(s.reverse.takeWhile isBlank).reverse, ?_, ?_⟩
  · rw [trimEnd, ← List.reverse_append, List.takeWhile_append_dropWhile, List.reverse_reverse]
  · intro c member
    exact List.all_eq_true.mp List.all_takeWhile c (List.mem_reverse.mp member)

theorem trim_append (s : List Char) :
    ∃ lead tail, s = lead ++ trim s ++ tail ∧ (∀ c ∈ lead, isBlank c = true) ∧
      ∀ c ∈ tail, isBlank c = true := by
  obtain ⟨tail, split, blanks⟩ := trimEnd_append (trimStart s)
  refine ⟨s.takeWhile isBlank, tail, ?_, List.all_eq_true.mp List.all_takeWhile, blanks⟩
  rw [trim, List.append_assoc, ← split]
  exact List.takeWhile_append_dropWhile.symm

theorem head_trim (s : List Char) : ∀ c ∈ (trim s).head?, isBlank c = false := by
  obtain ⟨tail, split, -⟩ := trimEnd_append (trimStart s)
  intro c first
  have begins : (trimStart s).head? = some c := by
    rw [split, List.head?_append, ← trim, Option.mem_def.mp first]
    rfl
  exact stops_dropWhile isBlank s c begins

theorem last_trim (s : List Char) : ∀ c ∈ (trim s).getLast?, isBlank c = false := by
  intro c last
  rw [trim, trimEnd, List.getLast?_reverse] at last
  exact stops_dropWhile isBlank (trimStart s).reverse c last

theorem trim_trim (s : List Char) : trim (trim s) = trim s :=
  trim_of_ends (head_trim s) (last_trim s)

theorem withoutTerminator_append (s : List Char) :
    ∃ rest, s = withoutTerminator s ++ rest ∧ ∀ d ∈ rest.head?, isNameChar d = false := by
  have apart {blank : List Char} (isBlank : ∀ c ∈ blank, isBlank c = true) :
      ∀ d ∈ blank.head?, isNameChar d = false :=
    fun d first => notName_of_blank (isBlank d (List.mem_of_mem_head? first))
  rw [withoutTerminator]
  split
  · rename_i last
    obtain ⟨before, shape⟩ := List.getLast?_eq_some_iff.mp last
    obtain ⟨blank, split, isBlank⟩ := trimEnd_append before
    refine ⟨blank ++ [';'], ?_, ?_⟩
    · rw [shape, List.dropLast_concat, ← List.append_assoc, ← split]
    · cases blank with
      | nil => exact semicolon_apart
      | cons b blank => simpa using apart isBlank
  · obtain ⟨blank, split, isBlank⟩ := trimEnd_append s
    exact ⟨blank, split, apart isBlank⟩

theorem words_append {s : List Char} {first : String} {others : List String}
    (trimmed : trim s = s) (shape : (words s).map String.ofList = first :: others) :
    ∃ rest, s = first.toList ++ rest ∧ ∀ d ∈ rest.head?, isNameChar d = false := by
  obtain ⟨word, rest, isWords, rfl, -⟩ := List.map_eq_cons_iff.mp shape
  have nonempty : s ≠ [] := by
    rintro rfl
    cases isWords
  let isLetter : Char → Bool := fun c => !isBlank c
  have parts : s.takeWhile isLetter ++ s.dropWhile isLetter = s := List.takeWhile_append_dropWhile
  have letters : ∀ c ∈ s.takeWhile isLetter, isBlank c = false := by
    intro c member
    simpa [isLetter] using List.all_eq_true.mp List.all_takeWhile c member
  have stops : ∀ d ∈ (s.dropWhile isLetter).head?, isBlank d = true := by
    intro d first
    simpa [isLetter] using stops_dropWhile isLetter s d first
  have begins : s.takeWhile isLetter ≠ [] := by
    obtain ⟨c, s, rfl⟩ := List.exists_cons_of_ne_nil nonempty
    have first := head_of_trimStart (trimStart_of_trim trimmed) c rfl
    simp [isLetter, first]
  have isFirst : s.takeWhile isLetter = word := by
    have split : words s = s.takeWhile isLetter :: runs isBlank (s.dropWhile isLetter) := by
      calc words s = runs isBlank (s.takeWhile isLetter ++ s.dropWhile isLetter) := by
            rw [parts]
            rfl
        _ = _ := by
            rw [runs_append stops, runs_of_uncut begins letters]
            rfl
    rw [isWords] at split
    exact (List.cons.inj split).1.symm
  refine ⟨s.dropWhile isLetter, ?_, fun d first => notName_of_blank (stops d first)⟩
  rw [String.toList_ofList, ← isFirst, parts]

section Boundary

variable {s : List Char} (unbegun : ∀ keyword ∈ boundaryKeywords, ¬ BeginsWith keyword.toList s)

include unbegun

theorem header_of_unbegun {α : Type} {keyword : String} (member : keyword ∈ boundaryKeywords)
    (read : List Char → Option α) :
    ((literal keyword s).bind fun rest => (blanks rest).bind read) = none := by
  cases begins : literal keyword s with
  | none => rfl
  | some rest =>
    have stops := blanks_literal (unbegun keyword member) begins
    simp [stops]

theorem PouHeader.read?_of_unbegun : PouHeader.read? s = none := by
  have functionBlock : functionBlock? s = none := header_of_unbegun unbegun (by decide) _
  have program : program? s = none := header_of_unbegun unbegun (by decide) _
  have function : function? s = none := header_of_unbegun unbegun (by decide) _
  simp [PouHeader.read?, functionBlock, program, function]

theorem MethodHeader.read?_of_unbegun : MethodHeader.read? s = none :=
  header_of_unbegun unbegun (by decide) _

theorem PropertyHeader.read?_of_unbegun : PropertyHeader.read? s = none :=
  header_of_unbegun unbegun (by decide) _

theorem ClosingWord.read?_of_unbegun : ClosingWord.read? s = none := by
  rw [ClosingWord.read?, List.find?_eq_none]
  intro word _ same
  have member : word.keyword ∈ boundaryKeywords := by
    cases word with
    | pou kind => cases kind <;> decide
    | _ => decide
  obtain ⟨rest, split, apart⟩ := withoutTerminator_append s
  rw [← beq_iff_eq.mp same] at split
  exact unbegun word.keyword member ⟨rest, split, apart⟩

theorem SectionHeader.read?_of_unbegun : SectionHeader.read? s = none := by
  simp only [SectionHeader.read?_eq]
  split
  · rfl
  · rename_i keyword qualifiers shape
    rw [if_neg]
    simp only [Bool.and_eq_true, beq_iff_eq, List.contains_iff_mem]
    rintro ⟨⟨trimmed, isSection⟩, -⟩
    have member : keyword ∈ boundaryKeywords := List.mem_append_right _ isSection
    obtain ⟨rest, split, apart⟩ := words_append trimmed shape
    exact unbegun keyword member ⟨rest, split, apart⟩

theorem Boundary.read?_of_unbegun : Boundary.read? s = none := by
  simp [Boundary.read?, ClosingWord.read?_of_unbegun unbegun, PouHeader.read?_of_unbegun unbegun,
    MethodHeader.read?_of_unbegun unbegun, PropertyHeader.read?_of_unbegun unbegun,
    SectionHeader.read?_of_unbegun unbegun]

end Boundary

end StructuredText
