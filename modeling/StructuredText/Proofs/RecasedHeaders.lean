import Mathlib.Data.List.Find
import StructuredText.Document.State
import StructuredText.Proofs.PlainHeader
import StructuredText.Proofs.RecasedReaders

set_option autoImplicit false

namespace StructuredText

section Modifiers

variable {α : Type} {modifiers : List String} {read : List Char → Option α} {s rest : List Char}

theorem afterModifiers_of_word (word : Reader.wordAmong modifiers s = some rest) :
    afterModifiers modifiers read s = (afterModifiers modifiers read rest).or (read s) := by
  rw [afterModifiers]
  split <;> simp_all

theorem afterModifiers_of_none (noWord : Reader.wordAmong modifiers s = none) :
    afterModifiers modifiers read s = read s := by
  rw [afterModifiers]
  split <;> simp_all

end Modifiers

namespace MethodHeader

theorem parenthesized?_eq {nested : Bool} {s inner after : List Char}
    (read : parenthesized? nested s = some (inner, after)) : s = inner ++ ')' :: after := by
  induction s generalizing nested inner with
  | nil => cases read
  | cons c s ih =>
    have kept {inside : Bool}
        (read : (parenthesized? inside s).map (fun parts => (c :: parts.1, parts.2)) =
          some (inner, after)) : c :: s = inner ++ ')' :: after := by
      obtain ⟨⟨rest, behind⟩, further, shape⟩ := Option.map_eq_some_iff.mp read
      obtain ⟨rfl, rfl⟩ := Prod.mk.inj shape
      rw [ih further, List.cons_append]
    simp only [parenthesized?] at read
    split at read
    · rename_i closes
      split at read
      · exact kept read
      · obtain ⟨rfl, rfl⟩ := Prod.mk.inj (Option.some.inj read)
        rw [closes, List.nil_append]
    · split at read
      · split at read
        · cases read
        · exact kept read
      · exact kept read

theorem parenthesized?_capitals (nested : Bool) (s : List Char) :
    parenthesized? nested (capitals s) =
      (parenthesized? nested s).map (Prod.map capitals capitals) := by
  induction s generalizing nested with
  | nil => rfl
  | cons c s ih =>
    have kept (inside : Bool) :
        ((parenthesized? inside s).map (Prod.map capitals capitals)).map
            (fun parts => (c.toUpper :: parts.1, parts.2)) =
          ((parenthesized? inside s).map fun parts => (c :: parts.1, parts.2)).map
            (Prod.map capitals capitals) := by
      cases parenthesized? inside s <;> rfl
    simp only [capitals_cons, parenthesized?, toUpper_eq_iff (by decide : ')'.isAlpha = false),
      toUpper_eq_iff (by decide : '('.isAlpha = false), ih, kept]
    split
    · split <;> rfl
    · split
      · split <;> rfl
      · rfl

end MethodHeader

def PouHeader.capitalized (header : PouHeader) : PouHeader where
  kind := header.kind
  name := inCapitals header.name
  returnType := header.returnType.map inCapitals
  base := header.base.map inCapitals
  interfaces := header.interfaces.map inCapitals

def PropertyHeader.capitalized (header : PropertyHeader) : PropertyHeader where
  name := inCapitals header.name
  type := inCapitals header.type

structure MethodHeader.Respells (one other : MethodHeader) : Prop where
  name : inCapitals one.name = inCapitals other.name
  parameters : Option.Rel Recased one.parameters other.parameters
  returnType : one.returnType.map inCapitals = other.returnType.map inCapitals

/-- The same boundary, up to the case of letters. Keywords are in capitals in any case. -/
inductive Boundary.Respells : Boundary → Boundary → Prop where
  | closing (word : ClosingWord) : Respells (.closing word) (.closing word)
  | pou {one other : PouHeader} (same : one.capitalized = other.capitalized) :
    Respells (.pou one) (.pou other)
  | method {one other : MethodHeader} (same : one.Respells other) :
    Respells (.method one) (.method other)
  | property {one other : PropertyHeader} (same : one.capitalized = other.capitalized) :
    Respells (.property one) (.property other)
  | varSection (header : SectionHeader) : Respells (.varSection header) (.varSection header)

theorem foreign_blockModifier : ∀ keyword ∈ blockModifiers, Foreign keyword.toList := by
  decide +kernel

theorem foreign_memberModifier : ∀ keyword ∈ memberModifiers, Foreign keyword.toList := by
  decide +kernel

theorem foreign_closingWord : ∀ word ∈ ClosingWord.all, Foreign word.keyword.toList := by
  decide +kernel

namespace Recased

variable {s t : List Char} (alike : Recased s t)

section Clauses

theorem modified {α : Type} {R : α → α → Prop} {modifiers : List String}
    {read : List Char → Option α} (foreign : ∀ keyword ∈ modifiers, Foreign keyword.toList)
    (respects : ∀ {s t : List Char}, Recased s t → Option.Rel R (read s) (read t))
    {s t : List Char} (alike : Recased s t) :
    Option.Rel R (afterModifiers modifiers read s) (afterModifiers modifiers read t) := by
  fun_induction afterModifiers modifiers read s generalizing t with
  | case1 s rest word ih =>
    obtain ⟨other, otherWord, behind⟩ := exists_of_rel (word ▸ alike.wordAmong foreign)
    rw [afterModifiers_of_word otherWord]
    exact rel_or (ih behind) (respects alike)
  | case2 s noWord =>
    rw [afterModifiers_of_none (eq_none_of_rel (noWord ▸ alike.wordAmong foreign))]
    exact respects alike

def ClauseAlike (one other : Option String × List Char) : Prop :=
  one.1.map inCapitals = other.1.map inCapitals ∧ Recased one.2 other.2

include alike

theorem isTerminator : isTerminator s = isTerminator t := by
  rw [StructuredText.isTerminator, StructuredText.isTerminator, Bool.eq_iff_iff, Bool.or_eq_true,
    Bool.or_eq_true, beq_iff_eq, beq_iff_eq, beq_iff_eq, beq_iff_eq]
  exact or_congr alike.trimStart.nil_iff (alike.trimStart.eq_sign_iff (by decide))

theorem typeClause : Option.Rel ClauseAlike (typeClause? s) (typeClause? t) := by
  have first := alike.trimStart
  rw [typeClause?, typeClause?]
  generalize StructuredText.trimStart s = one at first ⊢
  generalize StructuredText.trimStart t = other at first ⊢
  rcases first.starts (by decide : ':'.isAlpha = false) with
    ⟨rest, otherRest, rfl, rfl, behind⟩ | ⟨untyped, otherUntyped⟩
  · exact rel_map behind.trimStart.typeExpr fun _ _ both => ⟨by simp [both.1], both.2⟩
  · split
    · exact absurd rfl (untyped _)
    · exact .some ⟨rfl, alike⟩

theorem baseClause : ClauseAlike (PouHeader.baseClause s) (PouHeader.baseClause t) := by
  let clause (s : List Char) : Option (List Char × List Char) := do
    let rest ← Reader.blanks s
    let rest ← Reader.literal "EXTENDS" rest
    let rest ← Reader.blanks rest
    let isPart := fun c => isNameChar c || c == '.'
    if StructuredText.isQualifiedName (rest.takeWhile isPart) then
      some (rest.takeWhile isPart, rest.dropWhile isPart)
    else none
  have same : Option.Rel (fun one other => Recased one.1 other.1 ∧ Recased one.2 other.2)
      (clause s) (clause t) := by
    refine rel_bind alike.blanks fun _ _ rest => ?_
    refine rel_bind (rest.literal (by decide +kernel)) fun _ _ rest => ?_
    refine rel_bind rest.blanks fun _ _ rest => ?_
    obtain ⟨base, behind⟩ := rest.typePart
    simp only [base.isQualifiedName]
    split
    · exact .some ⟨base, behind⟩
    · exact .none
  have shape (s : List Char) : PouHeader.baseClause s =
      (clause s).elim (none, s) (fun parts => (some (String.ofList parts.1), parts.2)) := by
    rw [PouHeader.baseClause]
    split
    · rename_i found
      have read : clause s = some _ := found
      rw [read]
      rfl
    · rename_i nothing
      have read : clause s = none := nothing
      rw [read]
      rfl
  rw [shape, shape]
  generalize clause s = one at same ⊢
  generalize clause t = other at same ⊢
  cases same with
  | none => exact ⟨rfl, alike⟩
  | some both => exact ⟨by simp [both.1.letters], both.2⟩

theorem interfaceClause :
    Option.Rel (fun one other => one.map inCapitals = other.map inCapitals)
      (PouHeader.interfaceClause? s) (PouHeader.interfaceClause? t) := by
  simp only [PouHeader.interfaceClause?, alike.nil_iff]
  split
  · exact .some rfl
  · refine rel_bind alike.blanks fun _ _ rest => ?_
    refine rel_bind (rest.literal (by decide +kernel)) fun _ _ rest => ?_
    refine rel_bind rest.blanks fun one other rest => ?_
    have ended : (StructuredText.trimEnd one == one) = (StructuredText.trimEnd other == other) := by
      rw [Bool.eq_iff_iff, beq_iff_eq, beq_iff_eq]
      exact rest.trimEnd_eq_iff
    simp only [ended, all_eq isQualifiedName rest.names]
    split
    · exact .some (map_ofList rest.names)
    · exact .none

end Clauses

section Headers

omit alike in
theorem namedBlock {s t : List Char} (alike : Recased s t) :
    Option.Rel (fun one other => one.capitalized = other.capitalized)
      (PouHeader.functionBlock?.named s) (PouHeader.functionBlock?.named t) := by
  refine rel_bind alike.name fun rest other behind => ?_
  have clause := behind.baseClause
  generalize PouHeader.baseClause rest = one at clause ⊢
  generalize PouHeader.baseClause other = second at clause ⊢
  obtain ⟨sameBase, clauses⟩ := clause
  refine rel_bind clauses.interfaceClause fun interfaces others same => .some ?_
  simp only [PouHeader.capitalized, inCapitals_ofList, (alike.consumed behind).letters, sameBase,
    same]

include alike

theorem pouHeader :
    Option.Rel (fun one other => one.capitalized = other.capitalized)
      (PouHeader.read? s) (PouHeader.read? t) := by
  refine rel_or ?_ (rel_or ?_ ?_)
  · refine rel_bind (alike.literal (by decide +kernel)) fun _ _ rest => ?_
    exact rel_bind rest.blanks fun _ _ rest => rest.modified foreign_blockModifier namedBlock
  · refine rel_bind (alike.literal (by decide +kernel)) fun _ _ rest => ?_
    refine rel_bind rest.blanks fun _ _ name => ?_
    simp only [name.isName]
    split
    · exact .some (by simp [PouHeader.capitalized, name.letters])
    · exact .none
  · refine rel_bind (alike.literal (by decide +kernel)) fun _ _ rest => ?_
    refine rel_bind rest.blanks fun _ _ named => ?_
    refine rel_bind named.name fun _ _ behind => ?_
    refine rel_bind behind.typeClause ?_
    rintro ⟨type, after⟩ ⟨otherType, otherAfter⟩ ⟨sameType, ends⟩
    simp only [ends.nil_iff]
    split
    · refine .some ?_
      simp only [PouHeader.capitalized, inCapitals_ofList, (named.consumed behind).letters,
        sameType]
    · exact .none

theorem parameterText :
    Option.Rel Recased (MethodHeader.parameterText s).1 (MethodHeader.parameterText t).1 ∧
      Recased (MethodHeader.parameterText s).2 (MethodHeader.parameterText t).2 := by
  have first := alike.trimStart
  rw [MethodHeader.parameterText, MethodHeader.parameterText]
  generalize StructuredText.trimStart s = one at first ⊢
  generalize StructuredText.trimStart t = other at first ⊢
  rcases first.starts (by decide : '('.isAlpha = false) with
    ⟨rest, otherRest, rfl, rfl, behind⟩ | ⟨unopened, otherUnopened⟩
  · have parts := behind.of_split MethodHeader.parenthesized?_eq
      (MethodHeader.parenthesized?_capitals false)
    simp only
    generalize MethodHeader.parenthesized? false rest = left at parts ⊢
    generalize MethodHeader.parenthesized? false otherRest = right at parts ⊢
    cases parts with
    | none => exact ⟨.none, alike⟩
    | some both => exact ⟨.some both.1.trim, both.2⟩
  · split
    · exact absurd rfl (unopened _)
    · exact ⟨.none, alike⟩

omit alike in
theorem namedMethod {s t : List Char} (alike : Recased s t) :
    Option.Rel MethodHeader.Respells (MethodHeader.read?.named s) (MethodHeader.read?.named t) := by
  refine rel_bind alike.name fun rest other behind => ?_
  have text := behind.parameterText
  generalize MethodHeader.parameterText rest = one at text ⊢
  generalize MethodHeader.parameterText other = second at text ⊢
  obtain ⟨parameters, clauses⟩ := text
  refine rel_bind clauses.typeClause ?_
  rintro ⟨type, after⟩ ⟨otherType, otherAfter⟩ ⟨sameType, ends⟩
  simp only [ends.isTerminator]
  split
  · exact .some ⟨by simp [(alike.consumed behind).letters], parameters, sameType⟩
  · exact .none

theorem methodHeader :
    Option.Rel MethodHeader.Respells (MethodHeader.read? s) (MethodHeader.read? t) := by
  refine rel_bind (alike.literal (by decide +kernel)) fun _ _ rest => ?_
  exact rel_bind rest.blanks fun _ _ rest => rest.modified foreign_memberModifier namedMethod

omit alike in
theorem namedProperty {s t : List Char} (alike : Recased s t) :
    Option.Rel (fun one other => one.capitalized = other.capitalized)
      (PropertyHeader.read?.named s) (PropertyHeader.read?.named t) := by
  refine rel_bind alike.name fun rest other behind => ?_
  refine rel_bind behind.typeClause ?_
  rintro ⟨type, after⟩ ⟨otherType, otherAfter⟩ ⟨sameType, ends⟩
  simp only [ends.isTerminator]
  cases type with
  | none =>
    cases otherType with
    | none => exact .none
    | some other => cases sameType
  | some type =>
    cases otherType with
    | none => cases sameType
    | some other =>
      simp only [Option.bind_eq_bind, Option.bind_some]
      split
      · refine .some ?_
        simp only [PropertyHeader.capitalized, inCapitals_ofList, (alike.consumed behind).letters,
          Option.some.inj sameType]
      · exact .none

theorem propertyHeader :
    Option.Rel (fun one other => one.capitalized = other.capitalized)
      (PropertyHeader.read? s) (PropertyHeader.read? t) := by
  refine rel_bind (alike.literal (by decide +kernel)) fun _ _ rest => ?_
  exact rel_bind rest.blanks fun _ _ rest => rest.modified foreign_memberModifier namedProperty

omit alike in
theorem eq_of_mem {w v : List Char} {keywords : List String}
    (foreign : ∀ keyword ∈ keywords, Foreign keyword.toList) (alike : Recased w v)
    (member : String.ofList w ∈ keywords) : w = v := by
  have isForeign := foreign _ member
  rw [String.toList_ofList] at isForeign
  exact (alike.eq_iff isForeign).mp rfl

omit alike in
theorem contains_eq {w v : List Char} {keywords : List String}
    (foreign : ∀ keyword ∈ keywords, Foreign keyword.toList) (alike : Recased w v) :
    keywords.contains (String.ofList w) = keywords.contains (String.ofList v) := by
  rw [Bool.eq_iff_iff, List.contains_iff_mem, List.contains_iff_mem]
  constructor
  · intro member
    rwa [← eq_of_mem foreign alike member]
  · intro member
    rwa [← eq_of_mem foreign alike.symm member]

theorem sectionHeader : SectionHeader.read? s = SectionHeader.read? t := by
  have same := alike.words
  have trimmed : (StructuredText.trim s == s) = (StructuredText.trim t == t) := by
    rw [Bool.eq_iff_iff, beq_iff_eq, beq_iff_eq]
    exact alike.trim_eq_iff
  rw [SectionHeader.read?_eq, SectionHeader.read?_eq, trimmed]
  generalize StructuredText.words s = one at same ⊢
  generalize StructuredText.words t = other at same ⊢
  cases same with
  | nil => rfl
  | @cons word other qualifiers others first rest =>
    have qualified : (qualifiers.map String.ofList).all sectionQualifiers.contains =
        (others.map String.ofList).all sectionQualifiers.contains := by
      rw [List.all_map, List.all_map]
      exact all_eq (contains_eq foreign_qualifier) rest
    simp only [List.map_cons, contains_eq foreign_section first, qualified]
    split
    · rename_i accepted
      simp only [Bool.and_eq_true, List.contains_iff_mem] at accepted
      rw [eq_of_mem foreign_section first.symm accepted.1.2]
    · rfl

omit alike in
theorem find_keyword {α : Type} {keyword : α → String} {all : List α}
    (foreign : ∀ word ∈ all, Foreign (keyword word).toList) (alike : Recased s t) :
    (all.find? fun word => (keyword word).toList == s) =
      all.find? fun word => (keyword word).toList == t := by
  refine List.find?_congr fun word member => ?_
  rw [Bool.eq_iff_iff, beq_iff_eq, beq_iff_eq]
  exact alike.eq_iff (foreign word member)

theorem closingWord : ClosingWord.read? s = ClosingWord.read? t :=
  find_keyword foreign_closingWord alike.withoutTerminator

theorem accessor : Accessor.read? s = Accessor.read? t := by
  let bare (s : List Char) : List Char := (s.reverse.dropWhile (· == ';')).reverse
  have isPart (s : List Char) : bare s <+: s := by
    rw [← List.reverse_suffix, List.reverse_reverse]
    exact List.dropWhile_suffix _
  have commutes (s : List Char) : bare (capitals s) = capitals (bare s) := by
    simp only [bare, capitals_reverse]
    rw [capitals_dropWhile (beq_toUpper (by decide)), capitals_reverse]
  have foreign : ∀ accessor ∈ [Accessor.get, .set], Foreign accessor.keyword.toList := by
    decide +kernel
  exact find_keyword foreign (alike.of_prefix isPart commutes).trimEnd

theorem boundary : Option.Rel Boundary.Respells (Boundary.read? s) (Boundary.read? t) := by
  refine rel_or ?_ (rel_or ?_ (rel_or ?_ (rel_or ?_ ?_)))
  · rw [alike.closingWord]
    cases ClosingWord.read? t with
    | none => exact .none
    | some word => exact .some (.closing word)
  · exact rel_map alike.pouHeader fun _ _ same => .pou same
  · exact rel_map alike.methodHeader fun _ _ same => .method same
  · exact rel_map alike.propertyHeader fun _ _ same => .property same
  · rw [alike.sectionHeader]
    cases SectionHeader.read? t with
    | none => exact .none
    | some header => exact .some (.varSection header)

end Headers

end Recased

end StructuredText
