import StructuredText.Grammar.Declaration
import StructuredText.Grammar.Header
import StructuredText.Proofs.NoBoundary
import StructuredText.Proofs.RecasedText

set_option autoImplicit false

namespace StructuredText

theorem prefix_capitals_iff {signs : List Char} (noLetters : ∀ c ∈ signs, c.isAlpha = false)
    (s : List Char) : signs <+: capitals s ↔ signs <+: s := by
  induction signs generalizing s with
  | nil => simp
  | cons sign signs ih =>
    cases s with
    | nil => simp
    | cons c s =>
      have first : sign = c.toUpper ↔ sign = c := by
        rw [eq_comm, toUpper_eq_iff (noLetters sign List.mem_cons_self), eq_comm]
      have rest := ih (fun d member => noLetters d (List.mem_cons_of_mem sign member)) s
      rw [capitals_cons, List.cons_prefix_cons, List.cons_prefix_cons, first, rest]

namespace Recased

variable {s t : List Char}

section Readers

theorem literal_of_iff {keyword : String} (alike : Recased s t)
    (begins : keyword.toList <+: s ↔ keyword.toList <+: t) :
    Option.Rel Recased (Reader.literal keyword s) (Reader.literal keyword t) := by
  simp only [Reader.literal, List.isPrefixOf_iff_prefix, begins]
  split
  · exact .some (alike.drop _)
  · exact .none

theorem literal {keyword : String} (alike : Recased s t) (foreign : Foreign keyword.toList) :
    Option.Rel Recased (Reader.literal keyword s) (Reader.literal keyword t) :=
  alike.literal_of_iff (by simpa using alike.keywords _ foreign 0)

theorem assignSign (alike : Recased s t) :
    Option.Rel Recased (Reader.literal ":=" s) (Reader.literal ":=" t) := by
  have noLetters : ∀ c ∈ ":=".toList, c.isAlpha = false := by simp
  apply alike.literal_of_iff
  rw [← prefix_capitals_iff noLetters s, alike.letters, prefix_capitals_iff noLetters]

theorem blanks (alike : Recased s t) : Option.Rel Recased (Reader.blanks s) (Reader.blanks t) := by
  cases s with
  | nil =>
    obtain rfl := alike.nil_iff.mp rfl
    exact .none
  | cons c s =>
    obtain ⟨d, t, rfl, letters, rest⟩ := alike.cons_elim
    simp only [Reader.blanks, class_eq isBlank_toUpper letters]
    split
    · exact .some rest.trimStart
    · exact .none

theorem name (alike : Recased s t) : Option.Rel Recased (Reader.name s) (Reader.name t) := by
  cases s with
  | nil =>
    obtain rfl := alike.nil_iff.mp rfl
    exact .none
  | cons c s =>
    obtain ⟨d, t, rfl, letters, rest⟩ := alike.cons_elim
    simp only [Reader.name, class_eq isNameStart_toUpper letters]
    split
    · exact .some (rest.dropWhile isNameChar_toUpper)
    · exact .none

theorem bracketed {opening closing : Char} (alike : Recased s t)
    (first : opening.isAlpha = false) (last : closing.isAlpha = false) :
    Option.Rel Recased (Reader.bracketed opening closing s)
      (Reader.bracketed opening closing t) := by
  cases s with
  | nil =>
    obtain rfl := alike.nil_iff.mp rfl
    exact .none
  | cons c s =>
    obtain ⟨d, t, rfl, letters, rest⟩ := alike.cons_elim
    simp only [Reader.bracketed, StructuredText.eq_sign_iff first letters]
    split
    · exact rel_map (rest.splitAtChar last) fun _ _ parts => parts.2
    · exact .none

theorem wordAmong {keywords : List String} (alike : Recased s t)
    (foreign : ∀ keyword ∈ keywords, Foreign keyword.toList) :
    Option.Rel Recased (Reader.wordAmong keywords s) (Reader.wordAmong keywords t) := by
  induction keywords with
  | nil => exact .none
  | cons keyword keywords ih =>
    have here := rel_bind (alike.literal (foreign keyword List.mem_cons_self))
      fun _ _ rest => rest.blanks
    have later := ih fun other member => foreign other (List.mem_cons_of_mem keyword member)
    have unfolded (s : List Char) : Reader.wordAmong (keyword :: keywords) s =
        ((Reader.literal keyword s).bind Reader.blanks).or (Reader.wordAmong keywords s) := by
      rw [Reader.wordAmong, List.findSome?_cons]
      cases (Reader.literal keyword s).bind Reader.blanks <;> rfl
    rw [unfolded, unfolded]
    exact rel_or here later

theorem consumed {rest other : List Char} (alike : Recased s t) (behind : Recased rest other) :
    Recased (consumed s rest) (consumed t other) := by
  rw [StructuredText.consumed, StructuredText.consumed, alike.length_eq, behind.length_eq]
  exact alike.take _

theorem isName (alike : Recased s t) : isName s = isName t := by
  have same := alike.name
  rw [StructuredText.isName, StructuredText.isName, Bool.eq_iff_iff, beq_iff_eq, beq_iff_eq]
  generalize Reader.name s = one at same ⊢
  generalize Reader.name t = other at same ⊢
  cases same with
  | none => rfl
  | some rest => simpa using rest.nil_iff

theorem isQualifiedName (alike : Recased s t) : isQualifiedName s = isQualifiedName t := by
  have parts : List.Forall₂ Recased (StructuredText.splitWhere (· == '.') s)
      (StructuredText.splitWhere (· == '.') t) := alike.splitWhere (beq_toUpper (by decide))
  rw [StructuredText.isQualifiedName, StructuredText.isQualifiedName]
  generalize StructuredText.splitWhere (· == '.') s = pieces at parts ⊢
  generalize StructuredText.splitWhere (· == '.') t = others at parts ⊢
  induction parts with
  | nil => rfl
  | cons first _ ih => rw [List.all_cons, List.all_cons, first.isName, ih]

end Readers

section Types

theorem trim_eq_iff (alike : Recased s t) :
    StructuredText.trim s = s ↔ StructuredText.trim t = t := by
  have whole (s : List Char) :
      StructuredText.trim s = s ↔ (StructuredText.trim s).length = s.length := by
    refine ⟨congrArg List.length, fun lengths => ?_⟩
    obtain ⟨lead, tail, split, -⟩ := trim_append s
    exact List.IsInfix.eq_of_length ⟨lead, tail, split.symm⟩ lengths
  rw [whole, whole, alike.trim.length_eq, alike.length_eq]

theorem trimStart_eq_iff (alike : Recased s t) :
    StructuredText.trimStart s = s ↔ StructuredText.trimStart t = t := by
  have whole (s : List Char) :
      StructuredText.trimStart s = s ↔ (StructuredText.trimStart s).length = s.length :=
    ⟨congrArg List.length, (trimStart_suffix s).eq_of_length⟩
  rw [whole, whole, alike.trimStart.length_eq, alike.length_eq]

theorem trimEnd_eq_iff (alike : Recased s t) :
    StructuredText.trimEnd s = s ↔ StructuredText.trimEnd t = t := by
  have whole (s : List Char) :
      StructuredText.trimEnd s = s ↔ (StructuredText.trimEnd s).length = s.length := by
    refine ⟨congrArg List.length, fun lengths => ?_⟩
    obtain ⟨blank, split, -⟩ := trimEnd_append s
    exact List.IsPrefix.eq_of_length ⟨blank, split.symm⟩ lengths
  rw [whole, whole, alike.trimEnd.length_eq, alike.length_eq]

theorem words (alike : Recased s t) :
    List.Forall₂ Recased (StructuredText.words s) (StructuredText.words t) := by
  refine List.rel_filter (fun word other same => ?_) (alike.splitWhere isBlank_toUpper)
  simpa using same.nil_iff.not

theorem squash (alike : Recased s t) :
    capitals (StructuredText.squash s) = capitals (StructuredText.squash t) := by
  rw [StructuredText.squash, StructuredText.squash, capitals_intercalate, capitals_intercalate,
    map_capitals alike.words]

theorem wrapper (alike : Recased s t) :
    Option.Rel Recased (TypeExpr.wrapper s) (TypeExpr.wrapper t) := by
  have array : Option.Rel Recased (TypeExpr.wrapper.array s) (TypeExpr.wrapper.array t) := by
    refine rel_bind (alike.literal (by decide +kernel)) fun _ _ rest => ?_
    refine rel_bind (rest.trimStart.bracketed (by decide) (by decide)) fun _ _ rest => ?_
    exact rel_bind (rest.trimStart.literal (by decide +kernel)) fun _ _ rest => rest.blanks
  have wordTo {keyword : String} (foreign : Foreign keyword.toList) :
      Option.Rel Recased (TypeExpr.wrapper.wordTo keyword s)
        (TypeExpr.wrapper.wordTo keyword t) := by
    refine rel_bind (alike.literal foreign) fun _ _ rest => ?_
    refine rel_bind rest.blanks fun _ _ rest => ?_
    exact rel_bind (rest.literal (by decide +kernel)) fun _ _ rest => rest.blanks
  exact rel_or array (rel_or (wordTo (by decide +kernel)) (wordTo (by decide +kernel)))

theorem typePart (alike : Recased s t) :
    Recased (s.takeWhile fun c => isNameChar c || c == '.')
        (t.takeWhile fun c => isNameChar c || c == '.') ∧
      Recased (s.dropWhile fun c => isNameChar c || c == '.')
        (t.dropWhile fun c => isNameChar c || c == '.') := by
  have fixed (c : Char) :
      (fun c => isNameChar c || c == '.') c.toUpper = (fun c => isNameChar c || c == '.') c := by
    simp only [isNameChar_toUpper, beq_toUpper (by decide : '.'.isAlpha = false)]
  exact ⟨alike.takeWhile fixed, alike.dropWhile fixed⟩

theorem typeBase (alike : Recased s t) :
    Option.Rel Recased (TypeExpr.base s) (TypeExpr.base t) := by
  cases s with
  | nil =>
    obtain rfl := alike.nil_iff.mp rfl
    exact .none
  | cons c s =>
    obtain ⟨d, t, rfl, letters, rest⟩ := alike.cons_elim
    simp only [TypeExpr.base, class_eq isNameStart_toUpper letters]
    split
    · have after := rest.typePart.2
      have index := rel_or
        (after.trimStart.bracketed (by decide : '['.isAlpha = false)
          (by decide : ']'.isAlpha = false))
        (after.trimStart.bracketed (by decide : '('.isAlpha = false)
          (by decide : ')'.isAlpha = false))
      refine .some ?_
      generalize Option.or _ _ = one at index ⊢
      generalize Option.or _ _ = other at index ⊢
      cases index with
      | none => exact after
      | some rest => exact rest
    · exact .none

theorem typeReader (alike : Recased s t) :
    Option.Rel Recased (TypeExpr.reader s) (TypeExpr.reader t) := by
  fun_induction TypeExpr.reader s generalizing t with
  | case1 s rest wrapped ih =>
    obtain ⟨other, otherWrapped, behind⟩ := exists_of_rel (wrapped ▸ alike.wrapper)
    rw [TypeExpr.reader_of_wrapper otherWrapped]
    exact ih behind
  | case2 s notWrapped =>
    have alsoNot := eq_none_of_rel (notWrapped ▸ alike.wrapper)
    rw [TypeExpr.reader_of_base alsoNot]
    exact alike.typeBase

def TypeAlike (one other : String × List Char) : Prop :=
  inCapitals one.1 = inCapitals other.1 ∧ Recased one.2 other.2

theorem typeExpr (alike : Recased s t) :
    Option.Rel TypeAlike (TypeExpr.read? s) (TypeExpr.read? t) := by
  refine rel_map alike.typeReader fun rest other behind => ⟨?_, behind⟩
  rw [inCapitals_ofList, inCapitals_ofList, (alike.consumed behind).squash]

end Types

end Recased

def Declaration.capitalized (declaration : Declaration) : Declaration where
  names := declaration.names.map inCapitals
  type := inCapitals declaration.type
  initialValue := declaration.initialValue.map inCapitals

def Parameter.capitalized (parameter : Parameter) : Parameter where
  name := inCapitals parameter.name
  type := inCapitals parameter.type
  initialValue := parameter.initialValue.map inCapitals

inductive EntryAlike : Except String Parameter → Except String Parameter → Prop where
  | ok {one other : Parameter} (same : one.capitalized = other.capitalized) :
    EntryAlike (.ok one) (.ok other)
  | error {one other : String} (same : inCapitals one = inCapitals other) :
    EntryAlike (.error one) (.error other)

theorem CutAlike.splitTopLevel {s t : List Char} (same : capitals s = capitals t) (depth : Int) :
    CutAlike s t (Parameter.splitTopLevel depth s) (Parameter.splitTopLevel depth t) := by
  induction s generalizing t depth with
  | nil =>
    obtain rfl : t = [] := List.map_eq_nil_iff.mp same.symm
    exact .last
  | cons c s ih =>
    obtain ⟨d, t, rfl, isLetter, rest⟩ := List.map_eq_cons_iff.mp same.symm
    have sign {sign : Char} (noLetter : sign.isAlpha = false) : c = sign ↔ d = sign :=
      eq_sign_iff noLetter isLetter.symm
    have nesting : Parameter.nesting c = Parameter.nesting d := by
      simp only [Parameter.nesting, sign (by decide : '('.isAlpha = false),
        sign (by decide : '['.isAlpha = false), sign (by decide : ')'.isAlpha = false),
        sign (by decide : ']'.isAlpha = false)]
    simp only [Parameter.splitTopLevel, sign (by decide : ','.isAlpha = false), nesting]
    split
    · exact .cut [c] [d] rfl (ih rest.symm depth)
    · exact .keep (ih rest.symm _)

namespace Recased

variable {s t : List Char}

section Variables

theorem any_class {isClass : Char → Bool} (alike : Recased s t)
    (fixed : ∀ c, isClass c.toUpper = isClass c) : s.any isClass = t.any isClass := by
  have folded (s : List Char) : (capitals s).any isClass = s.any isClass := by
    rw [capitals, List.any_map]
    exact congrArg s.any (funext fixed)
  rw [← folded, alike.letters, folded]

theorem contains_newline (alike : Recased s t) : s.contains '\n' = t.contains '\n' := by
  simp only [List.contains_eq_any_beq]
  refine alike.any_class fun c => ?_
  rw [Bool.beq_comm, beq_toUpper (by decide), Bool.beq_comm]

theorem map_trim {pieces others : List (List Char)} (same : List.Forall₂ Recased pieces others) :
    List.Forall₂ Recased (pieces.map StructuredText.trim) (others.map StructuredText.trim) :=
  List.rel_map (fun _ _ piece => piece.trim) same

theorem names (alike : Recased s t) :
    List.Forall₂ Recased ((StructuredText.splitWhere (· == ',') s).map StructuredText.trim)
      ((StructuredText.splitWhere (· == ',') t).map StructuredText.trim) := by
  have parts : List.Forall₂ Recased (StructuredText.splitWhere (· == ',') s)
      (StructuredText.splitWhere (· == ',') t) := alike.splitWhere (beq_toUpper (by decide))
  exact map_trim parts

theorem map_ofList {pieces others : List (List Char)} (same : List.Forall₂ Recased pieces others) :
    (pieces.map String.ofList).map inCapitals = (others.map String.ofList).map inCapitals := by
  induction same with
  | nil => rfl
  | cons first _ ih =>
    simp only [List.map_cons, inCapitals_ofList, first.letters]
    exact congrArg _ ih

theorem all_eq {accepts : List Char → Bool}
    (respects : ∀ {s t : List Char}, Recased s t → accepts s = accepts t)
    {pieces others : List (List Char)} (same : List.Forall₂ Recased pieces others) :
    pieces.all accepts = others.all accepts := by
  induction same with
  | nil => rfl
  | cons first _ ih => rw [List.all_cons, List.all_cons, respects first, ih]

theorem initialiser (alike : Recased s t) :
    Option.Rel (fun one other => one.map inCapitals = other.map inCapitals)
      (Declaration.initialiser? s) (Declaration.initialiser? t) := by
  simp only [Declaration.initialiser?, alike.eq_sign_iff (by decide : ';'.isAlpha = false)]
  split
  · exact .some rfl
  · refine rel_bind alike.assignSign fun body other behind => ?_
    have value := behind.dropLast.trim
    have visible : body.dropLast.any (· != '\n') = other.dropLast.any (· != '\n') :=
      behind.dropLast.any_class fun c => congrArg (!·) (beq_toUpper (by decide) c)
    simp only [behind.getLast?_iff (by decide : ';'.isAlpha = false), value.nil_iff, visible,
      value.contains_newline, ne_eq]
    split
    · exact .none
    · split
      · split
        · exact .some rfl
        · exact .none
      · split
        · exact .none
        · exact .some (by simp [value.letters])

theorem declaration (alike : Recased s t) :
    Option.Rel (fun one other => one.capitalized = other.capitalized)
      (Declaration.read? s) (Declaration.read? t) := by
  refine rel_bind (alike.splitAtChar (by decide)) ?_
  rintro ⟨before, rest⟩ ⟨otherBefore, otherRest⟩ ⟨first, behind⟩
  refine rel_bind behind.trimStart.typeExpr ?_
  rintro ⟨type, rest⟩ ⟨otherType, otherRest⟩ ⟨sameType, behind⟩
  refine rel_bind behind.trimStart.initialiser fun value other sameValue => ?_
  have started : (StructuredText.trimStart before == before) =
      (StructuredText.trimStart otherBefore == otherBefore) := by
    rw [Bool.eq_iff_iff, beq_iff_eq, beq_iff_eq]
    exact first.trimStart_eq_iff
  simp only [started, all_eq isName first.names]
  split
  · refine .some ?_
    simp only [Declaration.capitalized, map_ofList first.names, sameType, sameValue]
  · exact .none

theorem parameterDefault (alike : Recased s t) :
    Option.Rel (fun one other => one.map inCapitals = other.map inCapitals)
      (Parameter.default? s) (Parameter.default? t) := by
  simp only [Parameter.default?, alike.nil_iff]
  split
  · exact .some rfl
  · refine rel_bind alike.assignSign fun body other behind => ?_
    simp only [behind.trim.nil_iff, behind.trim.contains_newline]
    split
    · exact .none
    · exact .some (by simp [behind.trim.letters])

theorem parameter (alike : Recased s t) :
    Option.Rel (fun one other => one.capitalized = other.capitalized)
      (Parameter.read? s) (Parameter.read? t) := by
  refine rel_bind (alike.splitAtChar (by decide)) ?_
  rintro ⟨before, rest⟩ ⟨otherBefore, otherRest⟩ ⟨first, behind⟩
  refine rel_bind behind.trimStart.typeExpr ?_
  rintro ⟨type, rest⟩ ⟨otherType, otherRest⟩ ⟨sameType, behind⟩
  refine rel_bind behind.trimStart.parameterDefault fun value other sameValue => ?_
  simp only [first.trimEnd.isName]
  split
  · refine .some ?_
    simp only [Parameter.capitalized, inCapitals_ofList, first.trimEnd.letters, sameType, sameValue]
  · exact .none

theorem parameterList (alike : Recased s t) :
    List.Forall₂ EntryAlike (Parameter.readList s) (Parameter.readList t) := by
  have parts := map_trim (alike.pieces (.splitTopLevel alike.letters 0))
  refine List.rel_map (fun entry other same => ?_)
    (List.rel_filter (fun entry other same => ?_) parts)
  · have read := same.parameter
    generalize Parameter.read? entry = one at read ⊢
    generalize Parameter.read? other = second at read ⊢
    cases read with
    | none => exact .error (by simp [same.letters])
    | some read => exact .ok read
  · simpa using same.nil_iff.not

end Variables

end Recased

end StructuredText
