import StructuredText.Proofs.TypeReading

set_option autoImplicit false

namespace StructuredText

open Reader

theorem splitAtChar_absent {close : Char} {s before after : List Char}
    (split : splitAtChar close s = some (before, after)) : close ∉ before := by
  fun_induction splitAtChar close s generalizing before with
  | case1 => simp at split
  | case2 => simp_all
  | case3 c rest other ih =>
    obtain ⟨⟨first, last⟩, found, shape⟩ := Option.map_eq_some_iff.mp split
    obtain ⟨rfl, rfl⟩ := Prod.mk.inj shape
    simpa [Ne.symm other] using ih found

theorem takeWhile_mem_splitWhere (cut : Char → Bool) (s : List Char) :
    s.takeWhile (!cut ·) ∈ (splitWhere cut s).head? := by
  induction s with
  | nil => simp [splitWhere]
  | cons c s ih =>
    by_cases cutsHere : cut c = true
    · simp [splitWhere, cutsHere]
    · obtain ⟨piece, pieces, shape⟩ := List.exists_cons_of_ne_nil (splitWhere_ne_nil cut s)
      rw [shape, List.head?_cons, Option.mem_some] at ih
      simp [splitWhere, cutsHere, shape, consFirst, ← ih]

theorem exists_mem_splitWhere {cut : Char → Bool} {c : Char} (uncut : cut c = false)
    {s : List Char} (member : c ∈ s) : ∃ piece ∈ splitWhere cut s, c ∈ piece := by
  induction s with
  | nil => cases member
  | cons d s ih =>
    obtain ⟨piece, pieces, shape⟩ := List.exists_cons_of_ne_nil (splitWhere_ne_nil cut s)
    rw [splitWhere]
    rcases List.mem_cons.mp member with rfl | later
    · simp [uncut, shape, consFirst]
    · obtain ⟨found, isPiece, inside⟩ := ih later
      split
      · exact ⟨found, List.mem_cons_of_mem [] isPiece, inside⟩
      · rw [shape] at isPiece ⊢
        rcases List.mem_cons.mp isPiece with rfl | other
        · exact ⟨d :: found, List.mem_cons_self, List.mem_cons_of_mem d inside⟩
        · exact ⟨found, List.mem_cons_of_mem _ other, inside⟩

theorem exists_mem_words {c : Char} (visible : isBlank c = false) {s : List Char}
    (member : c ∈ s) : ∃ word ∈ words s, c ∈ word := by
  obtain ⟨word, isPiece, inside⟩ := exists_mem_splitWhere visible member
  refine ⟨word, List.mem_filter.mpr ⟨isPiece, ?_⟩, inside⟩
  simpa using List.ne_nil_of_mem inside

theorem mem_withoutTerminator {c : Char} (visible : isBlank c = false) (other : c ≠ ';')
    {s : List Char} (member : c ∈ s) : c ∈ withoutTerminator s := by
  have kept {t : List Char} (inside : c ∈ t) : c ∈ trimEnd t := by
    obtain ⟨blank, split, isBlank⟩ := trimEnd_append t
    rw [split] at inside
    refine (List.mem_append.mp inside).resolve_right fun inBlank => ?_
    rw [isBlank c inBlank] at visible
    cases visible
  rw [withoutTerminator]
  split
  · rename_i last
    obtain ⟨before, rfl⟩ := List.getLast?_eq_some_iff.mp last
    rw [List.dropLast_concat]
    exact kept (by simpa [other] using member)
  · exact kept member

theorem blank_of_isName_trim {word t : List Char} {b : Char} (nonempty : word ≠ [])
    (isWord : ∀ c ∈ word, isNameChar c = true) (blank : isBlank b = true)
    (named : isName (trim (word ++ b :: t)) = true) : ∀ c ∈ t, isBlank c = true := by
  have first : trimStart (word ++ b :: t) = word ++ b :: t := by
    apply trimStart_of_head
    rw [List.head?_append_of_ne_nil _ nonempty]
    exact fun c first => isBlank_of_name (isWord c (List.mem_of_mem_head? first))
  rw [trim, first] at named
  obtain ⟨tail, split, isBlank⟩ := trimEnd_append (word ++ b :: t)
  have characters := isName_characters named
  rcases List.append_eq_append_iff.mp split with ⟨more, shape, rest⟩ | ⟨more, -, rest⟩
  · cases more with
    | nil =>
      rw [List.nil_append] at rest
      exact fun c member => isBlank c (rest ▸ List.mem_cons_of_mem b member)
    | cons d more =>
      obtain ⟨rfl, -⟩ := List.cons.inj rest
      have isNamed := characters b (by rw [shape]; simp)
      rw [notName_of_blank blank] at isNamed
      cases isNamed
  · exact fun c member => isBlank c (by rw [rest]; simp [member])

namespace Declaration

variable {s : List Char} {declaration : Declaration}

theorem read?_names (read : read? s = some declaration) :
    ∃ before after, s = before ++ ':' :: after ∧ ':' ∉ before ∧
      ∀ part ∈ splitWhere (· == ',') before, isName (trim part) = true := by
  simp only [read?, Option.bind_eq_bind, Option.bind_eq_some_iff] at read
  obtain ⟨⟨before, after⟩, split, _, -, _, -, named⟩ := read
  simp only [Option.ite_none_right_eq_some, Bool.and_eq_true, List.all_eq_true,
    List.mem_map] at named
  refine ⟨before, after, splitAtChar_eq split, splitAtChar_absent split, ?_⟩
  intro part member
  exact named.1.2 _ ⟨part, member, rfl⟩

theorem stops_of_blanks (read : read? s = some declaration) {word rest after : List Char}
    (shape : s = word ++ rest) (nonempty : word ≠ [])
    (isWord : ∀ c ∈ word, isNameChar c = true) (spaced : blanks rest = some after) :
    ∀ c ∈ after.head?, isNameChar c = false := by
  have absent {c : Char} (notName : isNameChar c = false) : c ∉ word := by
    intro member
    rw [isWord c member] at notName
    cases notName
  obtain ⟨before, tail, split, -, named⟩ := read?_names read
  -- The word ends before the colon does.
  obtain ⟨more, rfl, rfl⟩ := cut_behind (absent (by decide)) (shape.symm.trans split)
  cases more with
  | nil =>
    rw [List.nil_append, blanks, if_neg (by decide)] at spaced
    cases spaced
  | cons b more =>
    have blank : isBlank b = true := by
      by_contra notBlank
      simp [blanks, notBlank] at spaced
    have uncut : ∀ c ∈ word, (!(c == ',')) = true := by
      intro c member
      rw [Bool.not_eq_true', beq_eq_false_iff_ne]
      rintro rfl
      exact absent (by decide) member
    have notComma : (!(b == ',')) = true := by
      rw [Bool.not_eq_true', beq_eq_false_iff_ne]
      rintro rfl
      exact absurd blank (by decide)
    -- The first name of the declaration holds nothing but the word and blanks.
    have first := named _ (List.mem_of_mem_head?
      (takeWhile_mem_splitWhere (· == ',') (word ++ b :: more)))
    rw [List.takeWhile_append_of_pos uncut,
      List.takeWhile_cons_of_pos (p := fun c => !(c == ',')) notComma] at first
    have areBlank := blank_of_isName_trim nonempty isWord blank first
    have parts : more = more.takeWhile (fun c => !(c == ',')) ++
        more.dropWhile (fun c => !(c == ',')) := List.takeWhile_append_dropWhile.symm
    have stops : ∀ c ∈ (more.dropWhile (fun c => !(c == ',')) ++ ':' :: tail).head?,
        c = ',' ∨ c = ':' := by
      intro c isFirst
      cases behind : more.dropWhile (fun c => !(c == ',')) with
      | nil =>
        rw [behind] at isFirst
        exact .inr (Option.some.inj isFirst).symm
      | cons d behindFirst =>
        rw [behind] at isFirst
        obtain rfl : d = c := Option.some.inj isFirst
        have cut := List.head?_dropWhile_not (fun c => !(c == ',')) more
        rw [behind] at cut
        exact .inl (by simpa using cut)
    have apart : ∀ c ∈ (more.dropWhile (fun c => !(c == ',')) ++ ':' :: tail).head?,
        isBlank c = false := by
      intro c isFirst
      rcases stops c isFirst with rfl | rfl <;> decide
    rw [blanks_eq_trimStart spaced, trimStart, List.cons_append,
      List.dropWhile_cons_of_pos blank, ← trimStart, parts, List.append_assoc,
      trimStart_blank_append areBlank, trimStart_of_head apart]
    intro c isFirst
    rcases stops c isFirst with rfl | rfl <;> decide

end Declaration

section Boundary

variable {s : List Char} {declaration : Declaration}

variable (read : Declaration.read? s = some declaration)

include read

theorem header_of_declaration {α : Type} {keyword : String} (member : keyword ∈ boundaryKeywords)
    {next : List Char → Option α}
    (needsName : ∀ t, (∀ c ∈ t.head?, isNameChar c = false) → next t = none) :
    ((literal keyword s).bind fun rest => (blanks rest).bind next) = none := by
  obtain ⟨nonempty, isWord⟩ := isWord_of_mem member
  rw [Option.bind_eq_none_iff]
  intro rest begins
  rw [Option.bind_eq_none_iff]
  intro after spaced
  exact needsName after
    (Declaration.stops_of_blanks read (literal_eq_some begins) nonempty isWord spaced)

theorem PouHeader.read?_of_declaration : PouHeader.read? s = none := by
  have functionBlock : functionBlock? s = none :=
    header_of_declaration read (by decide) fun t stops =>
      afterModifiers_of_stops (by decide) (by simp +contextual [functionBlock?.named]) stops
  have program : program? s = none := by
    refine header_of_declaration read (by decide) fun t stops => ?_
    simp [isName, name_of_stops stops]
  have function : function? s = none := by
    refine header_of_declaration read (by decide) fun t stops => ?_
    simp [name_of_stops stops]
  simp [PouHeader.read?, functionBlock, program, function]

theorem MethodHeader.read?_of_declaration : MethodHeader.read? s = none :=
  header_of_declaration read (by decide) fun t stops =>
    afterModifiers_of_stops (by decide) (by simp +contextual [read?.named]) stops

theorem PropertyHeader.read?_of_declaration : PropertyHeader.read? s = none :=
  header_of_declaration read (by decide) fun t stops =>
    afterModifiers_of_stops (by decide) (by simp +contextual [read?.named]) stops

theorem colon_of_declaration : ':' ∈ s := by
  obtain ⟨before, after, rfl, -⟩ := Declaration.read?_names read
  simp

theorem ClosingWord.read?_of_declaration : ClosingWord.read? s = none := by
  have noColon : ∀ word ∈ all, ':' ∉ word.keyword.toList := by decide
  rw [ClosingWord.read?, List.find?_eq_none]
  intro word member same
  have colon := mem_withoutTerminator (by decide) (by decide) (colon_of_declaration read)
  rw [← beq_iff_eq.mp same] at colon
  exact noColon word member colon

theorem SectionHeader.read?_of_declaration : SectionHeader.read? s = none := by
  have noColon : ∀ keyword ∈ sectionKeywords ++ sectionQualifiers, ':' ∉ keyword.toList := by decide
  obtain ⟨word, isWord, colon⟩ := exists_mem_words (by decide) (colon_of_declaration read)
  simp only [SectionHeader.read?_eq]
  split
  · rfl
  · rename_i keyword qualifiers shape
    rw [if_neg]
    simp only [Bool.and_eq_true, List.contains_iff_mem, List.all_eq_true]
    rintro ⟨⟨-, isSection⟩, areQualifiers⟩
    have member : String.ofList word ∈ keyword :: qualifiers :=
      shape ▸ List.mem_map_of_mem isWord
    refine noColon (String.ofList word) ?_ (by simpa using colon)
    rcases List.mem_cons.mp member with same | later
    · exact List.mem_append_left _ (same ▸ isSection)
    · exact List.mem_append_right _ (areQualifiers _ later)

theorem Boundary.read?_of_declaration : Boundary.read? s = none := by
  simp [Boundary.read?, ClosingWord.read?_of_declaration read,
    PouHeader.read?_of_declaration read, MethodHeader.read?_of_declaration read,
    PropertyHeader.read?_of_declaration read, SectionHeader.read?_of_declaration read]

end Boundary

end StructuredText
