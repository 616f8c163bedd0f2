import StructuredText.Proofs.SquashedTypes

set_option autoImplicit false

namespace StructuredText

open Reader

namespace Declaration

theorem valueText_of_initialiser? {s : List Char} {value : Option String}
    (read : initialiser? s = some value) : ∀ text ∈ value, ValueText text.toList := by
  rw [initialiser?] at read
  split at read
  · obtain rfl := Option.some.inj read
    simp
  · obtain ⟨body, -, read⟩ := Option.bind_eq_some_iff.mp read
    dsimp only at read
    split at read
    · cases read
    · split at read
      · simp only [Option.ite_none_right_eq_some, Option.some.injEq] at read
        simp [← read.2]
      · rename_i nonempty
        simp only [Option.ite_none_left_eq_some, Option.some.injEq] at read
        obtain ⟨oneLine, rfl⟩ := read
        rintro text ⟨⟩
        rw [String.toList_ofList]
        exact ⟨nonempty, trim_trim _, by simpa using oneLine⟩

theorem of_read? {s : List Char} {declaration : Declaration} (read : read? s = some declaration) :
    (∀ name ∈ declaration.names, isName name.toList = true) ∧
      TypeText declaration.type.toList ∧
      ∀ value ∈ declaration.initialValue, ValueText value.toList := by
  simp only [read?, Option.bind_eq_bind, Option.bind_eq_some_iff, Prod.exists,
    Option.ite_none_right_eq_some, Option.some.injEq, Bool.and_eq_true, List.all_eq_true] at read
  obtain ⟨before, rest, -, type, behind, isType, value, isValue, ⟨-, named⟩, rfl⟩ := read
  refine ⟨?_, TypeExpr.typeText_of_read? isType, valueText_of_initialiser? isValue⟩
  intro name member
  obtain ⟨text, isText, rfl⟩ := List.mem_map.mp member
  rw [String.toList_ofList]
  exact named text isText

theorem reads_declaration {s : List Char} {declaration : Declaration}
    (read : read? s = some declaration) {v : Variable} (name : v.name ∈ declaration.names)
    (type : v.type = declaration.type) (value : v.initialValue = declaration.initialValue)
    (comment : v.comment = none) :
    read? v.declaration.toList = some { declaration with names := [v.name] } := by
  obtain ⟨named, isType, isValue⟩ := of_read? read
  rw [← type] at isType
  have values : ∀ text ∈ v.initialValue.map String.toList, ValueText text := by
    intro text member
    obtain ⟨stored, isStored, rfl⟩ := Option.map_eq_some_iff.mp member
    exact isValue stored (value ▸ isStored)
  rw [Variable.toList_declaration, comment, List.append_nil, Variable.text,
    read?_declarationText (named v.name name) isType.reads values, isType.squashed]
  simp [type, value, Function.comp_def]

end Declaration

namespace Assignment

theorem of_read? {s : List Char} {assignment : Assignment} (read : read? s = some assignment) :
    (Reader.name assignment.target).map afterAccesses = some [] ∧
      trim assignment.expression = assignment.expression ∧ '\n' ∉ assignment.expression := by
  simp only [read?, Option.bind_eq_bind, Option.bind_eq_some_iff,
    Option.ite_none_left_eq_some, Option.some.injEq] at read
  obtain ⟨behind, named, body, -, oneLine, rfl⟩ := read
  have trimmed {text : List Char} (first : ∀ c ∈ text.head?, isBlank c = false) :
      trim (trimEnd text) = trimEnd text := by
    have whole : trim text = trimEnd text := by rw [trim, trimStart_of_head first]
    rw [← whole, trim_trim]
  refine ⟨target_part named, ?_, by simpa using oneLine⟩
  dsimp only
  split
  · apply trimmed
    intro c first
    have inBody : c ∈ (trimStart body).head? := by
      obtain ⟨last, whole⟩ := List.dropLast_prefix (trimStart body)
      rw [← whole, List.head?_append, Option.mem_def.mp first]
      rfl
    exact stops_dropWhile isBlank body c inBody
  · exact trimmed (stops_dropWhile isBlank body)

theorem reads_text {s : List Char} {assignment : Assignment} (read : read? s = some assignment)
    (terminated : assignment.terminated = true) :
    read? (CodeLine.assignment (String.ofList assignment.target)
      (String.ofList assignment.expression)).text.toList = some assignment := by
  obtain ⟨isTarget, trimmed, oneLine⟩ := of_read? read
  rw [CodeLine.toList_assignment, String.toList_ofList, String.toList_ofList,
    read?_assignmentLine isTarget trimmed oneLine, ← terminated]

end Assignment

namespace ConditionalWord

theorem trim_of_condition? {keyword condition : String} {s : List Char}
    (read : condition? keyword s = some condition) : trim condition.toList = condition.toList := by
  simp only [condition?, Option.bind_eq_bind, Option.bind_eq_some_iff,
    Option.ite_none_left_eq_some, Option.some.injEq] at read
  obtain ⟨rest, -, text, -, first, -, last, -, -, rfl⟩ := read
  rw [String.toList_ofList, trim_trim]

theorem condition?_of_read? {s : List Char} {word : ConditionalWord} (read : read? s = some word) :
    (∀ condition, word = ifThen condition → condition? "IF" s = some condition) ∧
      ∀ condition, word = elsif condition → condition? "ELSIF" s = some condition := by
  simp only [read?, Option.or_eq_some_iff, Option.map_eq_some_iff] at read
  rcases read with ⟨found, isIf, rfl⟩ | ⟨-, ⟨found, isElsif, rfl⟩ | ⟨-, other⟩⟩
  · simp [isIf]
  · simp [isElsif]
  · split at other
    · simp [← Option.some.inj other]
    · split at other
      · simp [← Option.some.inj other]
      · cases other

theorem reads_ifThen {s : List Char} {condition : String}
    (read : read? s = some (ifThen condition)) :
    read? (CodeLine.ifThen condition).text.toList = some (ifThen condition) :=
  read?_ifThen (trim_of_condition? ((condition?_of_read? read).1 condition rfl))

theorem reads_elsif {s : List Char} {condition : String}
    (read : read? s = some (elsif condition)) :
    read? (CodeLine.elsif condition).text.toList = some (elsif condition) :=
  read?_elsif (trim_of_condition? ((condition?_of_read? read).2 condition rfl))

end ConditionalWord

section Header

theorem exists_of_afterModifiers {α : Type} {modifiers : List String} {next : List Char → Option α}
    {s : List Char} {result : α} (read : afterModifiers modifiers next s = some result) :
    ∃ t, next t = some result := by
  fun_induction afterModifiers modifiers next s with
  | case1 s rest word ih =>
    rcases Option.or_eq_some_iff.mp read with behind | ⟨-, here⟩
    · exact ih behind
    · exact ⟨s, here⟩
  | case2 s none => exact ⟨s, read⟩

theorem typeText_of_typeClause? {s rest : List Char} {type : Option String}
    (read : typeClause? s = some (type, rest)) : ∀ text ∈ type, TypeText text.toList := by
  rw [typeClause?] at read
  split at read
  · obtain ⟨⟨text, behind⟩, isType, same⟩ := Option.map_eq_some_iff.mp read
    obtain ⟨rfl, rfl⟩ := Prod.mk.inj same
    rintro _ ⟨⟩
    exact TypeExpr.typeText_of_read? isType
  · obtain ⟨rfl, -⟩ := Prod.mk.inj (Option.some.inj read)
    simp

theorem MethodHeader.of_read? {s : List Char} {header : MethodHeader}
    (read : read? s = some header) :
    isName header.name.toList = true ∧ ∀ type ∈ header.returnType, TypeText type.toList := by
  simp only [read?, Option.bind_eq_bind, Option.bind_eq_some_iff] at read
  obtain ⟨-, -, rest, -, read⟩ := read
  obtain ⟨t, named⟩ := exists_of_afterModifiers read
  simp only [read?.named, Option.bind_eq_bind, Option.bind_eq_some_iff] at named
  obtain ⟨behind, isName, ⟨type, after⟩, clause, named⟩ := named
  simp only [Option.ite_none_right_eq_some, Option.some.injEq] at named
  obtain ⟨-, rfl⟩ := named
  refine ⟨?_, typeText_of_typeClause? clause⟩
  rw [String.toList_ofList]
  exact isName_part isName

theorem PropertyHeader.of_read? {s : List Char} {header : PropertyHeader}
    (read : read? s = some header) :
    isName header.name.toList = true ∧ TypeText header.type.toList := by
  simp only [read?, Option.bind_eq_bind, Option.bind_eq_some_iff] at read
  obtain ⟨-, -, rest, -, read⟩ := read
  obtain ⟨t, named⟩ := exists_of_afterModifiers read
  simp only [read?.named, Option.bind_eq_bind, Option.bind_eq_some_iff] at named
  obtain ⟨behind, isName, ⟨type, after⟩, clause, text, isType, named⟩ := named
  simp only [Option.ite_none_right_eq_some, Option.some.injEq] at named
  obtain ⟨-, rfl⟩ := named
  refine ⟨?_, typeText_of_typeClause? clause text isType⟩
  rw [String.toList_ofList]
  exact isName_part isName

theorem MethodHeader.reads_line {s : List Char} {header : MethodHeader}
    (read : read? s = some header) {method : Method} (name : method.name = header.name)
    (returnType : method.returnType = header.returnType) (indent : String) :
    ∃ line ∈ (method.lines indent).head?,
      read? line.toList = some { header with parameters := none } := by
  obtain ⟨named, types⟩ := of_read? read
  have isFirst : (method.lines indent).head? =
      some ("METHOD " ++ method.name ++ (method.returnType.map (" : " ++ ·)).getD "") := by
    rw [Method.lines]
    cases method.returnType <;> rfl
  have typed : ∀ text ∈ header.returnType.map String.toList, TypeText text := by
    intro text member
    obtain ⟨type, isType, rfl⟩ := Option.map_eq_some_iff.mp member
    exact types type isType
  refine ⟨_, isFirst, ?_⟩
  rw [toList_methodHeader, name, returnType, read?_headerLine named typed]
  simp [Function.comp_def]

theorem PropertyHeader.reads_line {s : List Char} {header : PropertyHeader}
    (read : read? s = some header) {property : Property} (name : property.name = header.name)
    (type : property.type = header.type) (indent : String) :
    ∃ line ∈ (property.lines indent).head?, read? line.toList = some header := by
  obtain ⟨named, isType⟩ := of_read? read
  refine ⟨_, rfl, ?_⟩
  rw [toList_propertyHeader, name, type, read?_headerLine named isType, String.ofList_toList,
    String.ofList_toList]

end Header

/-- Each line that is written for what was read of the text is read as the same thing. A declaration
of several names is written as one line for each of them. -/
structure ReadsBack (text : List Char) : Prop where
  declaration : ∀ declaration, Declaration.read? text = some declaration →
    ∀ v : Variable, v.name ∈ declaration.names → v.type = declaration.type →
      v.initialValue = declaration.initialValue → v.comment = none →
        Declaration.read? v.declaration.toList = some { declaration with names := [v.name] }
  assignment : ∀ assignment, Assignment.read? text = some assignment →
    assignment.terminated = true →
      Assignment.read? (CodeLine.assignment (String.ofList assignment.target)
        (String.ofList assignment.expression)).text.toList = some assignment
  ifThen : ∀ condition, ConditionalWord.read? text = some (.ifThen condition) →
    ConditionalWord.read? (CodeLine.ifThen condition).text.toList = some (.ifThen condition)
  elsif : ∀ condition, ConditionalWord.read? text = some (.elsif condition) →
    ConditionalWord.read? (CodeLine.elsif condition).text.toList = some (.elsif condition)
  method : ∀ header, MethodHeader.read? text = some header →
    ∀ method : Method, method.name = header.name → method.returnType = header.returnType →
      ∀ indent, ∃ line ∈ (method.lines indent).head?,
        MethodHeader.read? line.toList = some { header with parameters := none }
  property : ∀ header, PropertyHeader.read? text = some header →
    ∀ property : Property, property.name = header.name → property.type = header.type →
      ∀ indent, ∃ line ∈ (property.lines indent).head?,
        PropertyHeader.read? line.toList = some header

theorem readsBack (text : List Char) : ReadsBack text where
  declaration _ read _ name type value comment :=
    Declaration.reads_declaration read name type value comment
  assignment _ read terminated := Assignment.reads_text read terminated
  ifThen _ read := ConditionalWord.reads_ifThen read
  elsif _ read := ConditionalWord.reads_elsif read
  method _ read _ name returnType indent := MethodHeader.reads_line read name returnType indent
  property _ read _ name type indent := PropertyHeader.reads_line read name type indent

end StructuredText
