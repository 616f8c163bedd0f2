import StructuredText.Proofs.CodeReading

set_option autoImplicit false

namespace StructuredText

open Reader

structure PlainName (s : List Char) : Prop where
  isName : isName s = true
  uncut : Cut.ofWord? s = none

structure PlainType (s : List Char) : Prop extends PlainText s where
  isType : TypeExpr.read? s = some (String.ofList s, [])

instance (s : List Char) : Decidable (PlainName s) :=
  decidable_of_iff (isName s = true ∧ Cut.ofWord? s = none)
    ⟨fun ⟨isName, uncut⟩ => ⟨isName, uncut⟩, fun plain => ⟨plain.isName, plain.uncut⟩⟩

instance (s : List Char) : Decidable (PlainType s) :=
  decidable_of_iff (PlainText s ∧ TypeExpr.read? s = some (String.ofList s, []))
    ⟨fun ⟨plain, isType⟩ => ⟨plain, isType⟩, fun plain => ⟨plain.toPlainText, plain.isType⟩⟩

structure TypeText (s : List Char) : Prop where
  reads : TypeExpr.reader s = some []
  squashed : squash s = s

theorem isName_cons {s : List Char} (named : isName s = true) :
    ∃ c rest, s = c :: rest ∧ isNameStart c = true ∧ ∀ d ∈ rest, isNameChar d = true := by
  have reads : Reader.name s = some [] := beq_iff_eq.mp named
  cases s with
  | nil => cases reads
  | cons c rest =>
    simp only [Reader.name, Option.ite_none_right_eq_some, Option.some.injEq] at reads
    exact ⟨c, rest, rfl, reads.1, List.dropWhile_eq_nil_iff.mp reads.2⟩

theorem isName_characters {s : List Char} (named : isName s = true) :
    ∀ c ∈ s, isNameChar c = true := by
  obtain ⟨c, rest, rfl, start, later⟩ := isName_cons named
  exact List.forall_mem_cons.mpr ⟨isNameChar_of_isNameStart start, later⟩

theorem trimStart_space_name {s : List Char} (named : isName s = true) (rest : List Char) :
    trimStart (' ' :: (s ++ rest)) = s ++ rest := by
  obtain ⟨c, later, rfl, start, -⟩ := isName_cons named
  rw [← List.singleton_append, trimStart_blank_append isBlank_of_mem_space]
  apply trimStart_of_head
  rintro d ⟨⟩
  exact isBlank_of_name (isNameChar_of_isNameStart start)

namespace PlainName

variable {s : List Char}

theorem reads (plain : PlainName s) : Reader.name s = some [] :=
  beq_iff_eq.mp plain.isName

theorem cons (plain : PlainName s) :
    ∃ c rest, s = c :: rest ∧ isNameStart c = true ∧ ∀ d ∈ rest, isNameChar d = true :=
  isName_cons plain.isName

theorem nonempty (plain : PlainName s) : s ≠ [] := by
  obtain ⟨c, rest, rfl, -, -⟩ := plain.cons
  exact List.cons_ne_nil c rest

theorem characters (plain : PlainName s) : ∀ c ∈ s, isNameChar c = true :=
  isName_characters plain.isName

theorem absent (plain : PlainName s) {c : Char} (notName : isNameChar c = false) : c ∉ s := by
  intro member
  rw [plain.characters c member] at notName
  cases notName

theorem plainText (plain : PlainName s) : PlainText s where
  nonempty := plain.nonempty
  trimmed := trim_of_name plain.characters
  characters := by
    intro c member special
    have notName : (['\n', '\x27', '\x22', '\x7b', ';'].all fun c => !isNameChar c) = true := by
      decide
    have stops : isNameChar c = false := by simpa using List.all_eq_true.mp notName c special
    exact plain.absent stops member
  markers := by
    intro marker member inside
    have notName : (commentMarkers.all fun marker => marker.toList.any fun c => !isNameChar c) =
        true := by decide
    obtain ⟨c, inMarker, stops⟩ := List.any_eq_true.mp (List.all_eq_true.mp notName marker member)
    exact plain.absent (by simpa using stops) (inside.subset inMarker)
  words := by
    rw [asciiWords_of_name plain.nonempty plain.characters]
    simpa using plain.uncut

end PlainName

def typeSuffix : Option (List Char) → List Char
  | none => []
  | some type => ' ' :: ':' :: ' ' :: type

def headerLine (keyword name : List Char) (type : Option (List Char)) : List Char :=
  keyword ++ ' ' :: (name ++ typeSuffix type)

theorem toList_methodHeader (name : String) (returnType : Option String) :
    ("METHOD " ++ name ++ (returnType.map (" : " ++ ·)).getD "").toList =
      headerLine "METHOD".toList name.toList (returnType.map String.toList) := by
  cases returnType <;> simp [headerLine, typeSuffix]

theorem toList_propertyHeader (name type : String) :
    ("PROPERTY " ++ name ++ " : " ++ type).toList =
      headerLine "PROPERTY".toList name.toList (some type.toList) := by
  simp [headerLine, typeSuffix]

section Line

variable {keyword name : List Char} {type : Option (List Char)}

theorem typeSuffix_apart (type : Option (List Char)) :
    ∀ d ∈ (typeSuffix type).head?, isNameChar d = false := by
  have notName : isNameChar ' ' = false := by decide
  cases type with
  | none => simp [typeSuffix]
  | some type => simpa [typeSuffix] using notName

theorem uncut_typeSuffix (plain : ∀ text ∈ type, PlainType text) : Uncut (typeSuffix type) := by
  cases type with
  | none => exact ⟨by simp [typeSuffix], by decide⟩
  | some type =>
    have isType := (plain type rfl).uncut
    refine .cons (.cons (.cons isType ?_ ?_) ?_ ?_) ?_ ?_ <;> decide

theorem uncut_behindKeyword (isName : PlainName name) (plain : ∀ text ∈ type, PlainType text) :
    Uncut (' ' :: (name ++ typeSuffix type)) :=
  (isName.plainText.uncut.append (uncut_typeSuffix plain) (typeSuffix_apart type)).cons (by decide)
    (by decide)

theorem bare_headerLine (safe : keyword.all isBareChar = true) (isName : PlainName name)
    (plain : ∀ text ∈ type, PlainType text) : Bare (headerLine keyword name type) := by
  have behind : Bare (name ++ typeSuffix type) := by
    cases type with
    | none => simpa [typeSuffix] using isName.plainText.bare
    | some type =>
      have isType : Bare (' ' :: ':' :: ' ' :: type) := by
        refine .cons (.cons (.cons (plain type rfl).bare ?_ ?_) ?_ ?_) ?_ ?_ <;> decide
      exact isName.plainText.bare.append_cons isType (by decide)
  exact (bare_of_all safe).append_cons (behind.cons (by decide) (by decide)) (by decide)

theorem last_headerLine (keyword : List Char) (isName : PlainName name)
    (plain : ∀ text ∈ type, PlainType text) :
    ∃ c, (headerLine keyword name type).getLast? = some c ∧ isBlank c = false ∧ c ≠ ';' := by
  have ends {text : List Char} (isText : PlainText text) :
      ∃ c, text.getLast? = some c ∧ isBlank c = false ∧ c ≠ ';' := by
    obtain ⟨c, last⟩ := Option.isSome_iff_exists.mp (List.getLast?_isSome.mpr isText.nonempty)
    exact ⟨c, last, (isText.last_visible c last).symm⟩
  cases type with
  | none =>
    obtain ⟨c, last, ends⟩ := ends isName.plainText
    refine ⟨c, ?_, ends⟩
    simp [headerLine, typeSuffix, List.getLast?_append, List.getLast?_cons, last]
  | some type =>
    obtain ⟨c, last, ends⟩ := ends (plain type rfl).toPlainText
    refine ⟨c, ?_, ends⟩
    simp [headerLine, typeSuffix, List.getLast?_append, List.getLast?_cons, last]

theorem fragments_header (nonempty : keyword ≠ []) (isKeyword : ∀ c ∈ keyword, isNameChar c = true)
    (cut : Cut.ofWord? keyword = some .before) {behind : List Char} (uncut : Uncut behind)
    (apart : ∀ d ∈ behind.head?, isNameChar d = false)
    (last : ∀ c ∈ (keyword ++ behind).getLast?, isBlank c = false) :
    (fragments (keyword ++ behind)).map Fragment.text = [keyword ++ behind] := by
  have whole : pieces (lexemes behind) = (lexemes behind, []) := by
    have appended := pieces_append uncut.isUncut_of_mem []
    simpa [pieces] using appended
  have texts : pieceTexts (keyword ++ behind) = [[], keyword ++ behind] := by
    rw [pieceTexts, lexemes_word_append nonempty isKeyword apart, pieces]
    simp only [cut, whole]
    simp [flatMap_text_lexemes, Lexeme.text]
  have trimmed : trim (keyword ++ behind) = keyword ++ behind := by
    refine trim_of_ends ?_ last
    rw [List.head?_append_of_ne_nil _ nonempty]
    exact fun c first => isBlank_of_name (isKeyword c (List.mem_of_mem_head? first))
  have kept : isFragment (keyword ++ behind) = true := by
    obtain ⟨c, rest, rfl⟩ := List.exists_cons_of_ne_nil nonempty
    have notSemicolon : c ≠ ';' := by
      rintro rfl
      exact absurd (isKeyword ';' List.mem_cons_self) (by decide)
    simp [isFragment, notSemicolon]
  simp [map_text_fragments, texts, trimmed, kept]

theorem fragments_headerLine (nonempty : keyword ≠ [])
    (isKeyword : ∀ c ∈ keyword, isNameChar c = true) (cut : Cut.ofWord? keyword = some .before)
    (isName : PlainName name) (plain : ∀ text ∈ type, PlainType text) :
    (fragments (headerLine keyword name type)).map Fragment.text =
      [headerLine keyword name type] := by
  obtain ⟨c, last, visible, -⟩ := last_headerLine keyword isName plain
  refine fragments_header nonempty isKeyword cut (uncut_behindKeyword isName plain)
    (by simp; decide) ?_
  rw [← headerLine, last]
  rintro _ ⟨⟩
  exact visible

end Line

section Reading

theorem Reader.literal_append (keyword : String) (s : List Char) :
    literal keyword (keyword.toList ++ s) = some s := by
  simp [literal]

theorem Reader.literal_of_head {keyword : String} {s : List Char}
    (nonempty : keyword.toList ≠ []) (differs : ∀ c ∈ s.head?, c ∉ keyword.toList.head?) :
    literal keyword s = none := by
  cases read : literal keyword s with
  | none => rfl
  | some rest =>
    have whole := literal_eq_some read
    obtain ⟨c, tail, shape⟩ := List.exists_cons_of_ne_nil nonempty
    exact absurd (by rw [shape]; rfl) (differs c (by rw [whole, shape]; rfl))

theorem afterModifiers_eq {α : Type} {modifiers : List String} {read : List Char → Option α}
    {s : List Char}
    (alone : ∀ rest, wordAmong modifiers s = some rest →
      afterModifiers modifiers read rest = none) :
    afterModifiers modifiers read s = read s := by
  rw [afterModifiers]
  split
  · rename_i rest behind
    rw [alone rest behind, Option.none_or]
  · rfl

theorem Reader.name_of_stops {s : List Char} (stops : ∀ c ∈ s.head?, isNameChar c = false) :
    Reader.name s = none := by
  cases s with
  | nil => rfl
  | cons c s =>
    rw [Reader.name, if_neg]
    intro start
    have isName := isNameChar_of_isNameStart start
    rw [stops c rfl] at isName
    cases isName

theorem afterModifiers_of_stops {α : Type} {modifiers : List String} {s : List Char}
    (areNames : (modifiers.all fun word =>
      word.toList.all isNameChar && !word.toList.isEmpty) = true)
    {next : List Char → Option α} (needsName : ∀ t, Reader.name t = none → next t = none)
    (stops : ∀ c ∈ s.head?, isNameChar c = false) : afterModifiers modifiers next s = none := by
  rw [afterModifiers_eq, needsName s (name_of_stops stops)]
  intro rest found
  obtain ⟨word, member, more⟩ := List.exists_of_findSome?_eq_some found
  have isWord := List.all_eq_true.mp areNames word member
  rw [Bool.and_eq_true, List.all_eq_true] at isWord
  have differs : ∀ c ∈ s.head?, c ∉ word.toList.head? := by
    intro c first same
    have isName := isWord.1 c (List.mem_of_mem_head? same)
    rw [stops c first] at isName
    cases isName
  rw [literal_of_head (by simpa using isWord.2) differs] at more
  cases more

variable {name : List Char} {type : Option (List Char)}

theorem wordAmong_name {modifiers : List String}
    (areNames : (modifiers.all fun word => word.toList.all isNameChar) = true)
    (named : isName name = true) {rest : List Char}
    (read : wordAmong modifiers (name ++ typeSuffix type) = some rest) :
    ∃ text ∈ type, rest = ':' :: ' ' :: text := by
  obtain ⟨word, member, found⟩ := List.exists_of_findSome?_eq_some read
  obtain ⟨mid, begins, behind⟩ := Option.bind_eq_some_iff.mp found
  have isWord : ∀ c ∈ word.toList, isNameChar c = true :=
    List.all_eq_true.mp (List.all_eq_true.mp areNames word member)
  have apart : ∀ d ∈ mid.head?, isNameChar d = false := by
    cases mid with
    | nil => simp
    | cons b mid =>
      have blank : isBlank b = true := by
        by_contra notBlank
        simp [blanks, notBlank] at behind
      simpa using notName_of_blank blank
  have same : mid = typeSuffix type := by
    have dropped := congrArg (List.dropWhile isNameChar) (literal_eq_some begins)
    rw [(span_append (typeSuffix_apart type)).2, (span_append apart).2,
      List.dropWhile_eq_nil_iff.mpr (isName_characters named),
      List.dropWhile_eq_nil_iff.mpr isWord] at dropped
    exact dropped.symm
  rw [same] at behind
  cases type with
  | none => cases behind
  | some text => exact ⟨text, rfl, (Option.some.inj behind).symm⟩

theorem afterModifiers_name {α : Type} (modifiers : List String)
    (areNames : (modifiers.all fun word =>
      word.toList.all isNameChar && !word.toList.isEmpty) = true)
    {read : List Char → Option α} (needsName : ∀ s, Reader.name s = none → read s = none)
    (named : isName name = true) :
    afterModifiers modifiers read (name ++ typeSuffix type) = read (name ++ typeSuffix type) := by
  have words : ∀ word ∈ modifiers, word.toList.all isNameChar = true := by
    intro word member
    exact (Bool.and_eq_true_iff.mp (List.all_eq_true.mp areNames word member)).1
  refine afterModifiers_eq fun rest behind => ?_
  obtain ⟨text, -, rfl⟩ := wordAmong_name (List.all_eq_true.mpr words) named behind
  refine afterModifiers_of_stops areNames needsName ?_
  rintro c ⟨⟩
  decide

theorem name_typeSuffix (named : isName name = true) :
    Reader.name (name ++ typeSuffix type) = some (typeSuffix type) :=
  name_append (typeSuffix_apart type) (beq_iff_eq.mp named)

theorem consumed_append (s rest : List Char) : consumed (s ++ rest) rest = s := by
  simp [consumed]

theorem TypeExpr.head_of_reader {s rest : List Char} (read : reader s = some rest) :
    ∃ c t, s = c :: t ∧ isNameStart c = true := by
  have letter {keyword : String} {mid : List Char} (begins : literal keyword s = some mid)
      (isLetter : keyword.toList.head?.any isNameStart = true) :
      ∃ c t, s = c :: t ∧ isNameStart c = true := by
    obtain ⟨c, first, start⟩ := (Option.any_eq_true _ _).mp isLetter
    obtain ⟨later, shape⟩ := List.head?_eq_some_iff.mp first
    exact ⟨c, later ++ mid, by rw [literal_eq_some begins, shape]; rfl, start⟩
  rw [reader] at read
  split at read
  · rename_i more wrapped
    simp only [wrapper, Option.or_eq_some_iff] at wrapped
    rcases wrapped with array | ⟨-, pointer | ⟨-, reference⟩⟩
    · obtain ⟨mid, begins, -⟩ := Option.bind_eq_some_iff.mp array
      exact letter begins (by decide)
    · obtain ⟨mid, begins, -⟩ := Option.bind_eq_some_iff.mp pointer
      exact letter begins (by decide)
    · obtain ⟨mid, begins, -⟩ := Option.bind_eq_some_iff.mp reference
      exact letter begins (by decide)
  · cases s with
    | nil => cases read
    | cons c t =>
      simp only [base, Option.ite_none_right_eq_some] at read
      exact ⟨c, t, rfl, read.1⟩

theorem TypeExpr.trimStart_append {text rest : List Char} (reads : reader text = some rest)
    (u : List Char) : trimStart (text ++ u) = text ++ u := by
  obtain ⟨c, later, rfl, start⟩ := head_of_reader reads
  apply trimStart_of_head
  rintro d ⟨⟩
  exact isBlank_of_name (isNameChar_of_isNameStart start)

theorem TypeExpr.trimStart_space_append {text rest : List Char} (reads : reader text = some rest)
    (u : List Char) : trimStart (' ' :: (text ++ u)) = text ++ u := by
  rw [← List.singleton_append, trimStart_blank_append isBlank_of_mem_space, trimStart_append reads]

theorem TypeText.read? {text : List Char} (isType : TypeText text) :
    TypeExpr.read? text = some (String.ofList text, []) := by
  have whole : consumed text [] = text := by simp [consumed]
  simp [TypeExpr.read?, isType.reads, whole, isType.squashed]

theorem PlainType.typeText {text : List Char} (plain : PlainType text) : TypeText text := by
  obtain ⟨rest, reads, same⟩ := Option.map_eq_some_iff.mp plain.isType
  obtain ⟨squashed, rfl⟩ := Prod.mk.inj same
  have whole : consumed text [] = text := by simp [consumed]
  rw [whole, String.ofList_inj] at squashed
  exact ⟨reads, squashed⟩

theorem typeClause?_typeSuffix (types : ∀ text ∈ type, TypeText text) :
    typeClause? (typeSuffix type) = some (type.map String.ofList, []) := by
  cases type with
  | none => rfl
  | some text =>
    have isType := types text rfl
    have begins : trimStart (' ' :: text) = text := by
      have trimmed := TypeExpr.trimStart_space_append isType.reads []
      rwa [List.append_nil] at trimmed
    have shape : trimStart (typeSuffix (some text)) = ':' :: ' ' :: text := rfl
    simp [typeClause?, shape, begins, isType.read?]

theorem blanks_name (named : isName name = true) (rest : List Char) :
    blanks (' ' :: (name ++ rest)) = some (name ++ rest) := by
  have begins := trimStart_space_name named rest
  rw [trimStart, List.dropWhile_cons_of_pos (by decide), ← trimStart] at begins
  simp [blanks, begins, show isBlank ' ' = true by decide]

theorem MethodHeader.read?_headerLine (named : isName name = true)
    (types : ∀ text ∈ type, TypeText text) :
    read? (headerLine "METHOD".toList name type) =
      some { name := String.ofList name, parameters := none,
             returnType := type.map String.ofList } := by
  have needsName : ∀ s, Reader.name s = none → read?.named s = none := by
    intro s none
    simp [read?.named, none]
  have noParameters : parameterText (typeSuffix type) = (none, typeSuffix type) := by
    cases type <;> rfl
  rw [read?, headerLine, literal_append]
  simp only [Option.bind_eq_bind, Option.bind_some, blanks_name named,
    afterModifiers_name memberModifiers (by decide) needsName named]
  simp [read?.named, name_typeSuffix named, noParameters, typeClause?_typeSuffix types,
    consumed_append, show isTerminator [] = true from rfl]

theorem PropertyHeader.read?_headerLine {text : List Char} (named : isName name = true)
    (isType : TypeText text) :
    read? (headerLine "PROPERTY".toList name (some text)) =
      some { name := String.ofList name, type := String.ofList text } := by
  have needsName : ∀ s, Reader.name s = none → read?.named s = none := by
    intro s none
    simp [read?.named, none]
  have clause : typeClause? (typeSuffix (some text)) = some (some (String.ofList text), []) :=
    typeClause?_typeSuffix (by simpa using isType)
  rw [read?, headerLine, literal_append]
  simp only [Option.bind_eq_bind, Option.bind_some, blanks_name named,
    afterModifiers_name memberModifiers (by decide) needsName named]
  simp [read?.named, name_typeSuffix named, clause, consumed_append,
    show isTerminator [] = true from rfl]

theorem PouHeader.read?_headerLine (isName : PlainName name) :
    read? (headerLine "FUNCTION_BLOCK".toList name none) =
      some { kind := .functionBlock, name := String.ofList name } := by
  have needsName : ∀ s, Reader.name s = none → functionBlock?.named s = none := by
    intro s none
    simp [functionBlock?.named, none]
  have reads : functionBlock? (headerLine "FUNCTION_BLOCK".toList name none) =
      some { kind := .functionBlock, name := String.ofList name } := by
    rw [functionBlock?, headerLine, literal_append]
    simp only [Option.bind_eq_bind, Option.bind_some, blanks_name isName.isName,
      afterModifiers_name blockModifiers (by decide) needsName isName.isName]
    have noClause : baseClause [] = (none, []) := rfl
    simp [functionBlock?.named, typeSuffix, isName.reads, noClause, interfaceClause?, consumed]
  rw [read?, reads, Option.some_or]

theorem ClosingWord.read?_of_space {s : List Char} (space : ' ' ∈ withoutTerminator s) :
    read? s = none := by
  have oneWord : ∀ word ∈ all, ' ' ∉ word.keyword.toList := by decide
  rw [read?, List.find?_eq_none]
  intro word member same
  rw [← beq_iff_eq.mp same] at space
  exact oneWord word member space

theorem ClosingWord.read?_headerLine (keyword : List Char) (isName : PlainName name)
    (plain : ∀ text ∈ type, PlainType text) : read? (headerLine keyword name type) = none := by
  obtain ⟨c, last, visible, notSemicolon⟩ := last_headerLine keyword isName plain
  apply read?_of_space
  rw [withoutTerminator_of_last last ⟨notSemicolon, visible⟩]
  simp [headerLine]

theorem Boundary.read?_block (isName : PlainName name) :
    read? (headerLine "FUNCTION_BLOCK".toList name none) =
      some (.pou { kind := .functionBlock, name := String.ofList name }) := by
  have notClosing : ClosingWord.read? (headerLine "FUNCTION_BLOCK".toList name none) = none :=
    ClosingWord.read?_headerLine _ isName (by simp)
  rw [read?, notClosing, PouHeader.read?_headerLine isName]
  rfl

theorem PouHeader.read?_of_literals {s : List Char} (noBlock : literal "FUNCTION_BLOCK" s = none)
    (noProgram : literal "PROGRAM" s = none) (noFunction : literal "FUNCTION" s = none) :
    read? s = none := by
  simp [read?, functionBlock?, program?, function?, noBlock, noProgram, noFunction]

theorem Boundary.read?_method (isName : PlainName name) (plain : ∀ text ∈ type, PlainType text) :
    read? (headerLine "METHOD".toList name type) =
      some (.method { name := String.ofList name, parameters := none,
                      returnType := type.map String.ofList }) := by
  have notPou : PouHeader.read? (headerLine "METHOD".toList name type) = none :=
    PouHeader.read?_of_literals (by simp [literal, headerLine]) (by simp [literal, headerLine])
      (by simp [literal, headerLine])
  rw [read?, ClosingWord.read?_headerLine _ isName plain, notPou,
    MethodHeader.read?_headerLine isName.isName fun text member => (plain text member).typeText]
  rfl

theorem Boundary.read?_property {text : List Char} (isName : PlainName name)
    (plain : PlainType text) :
    read? (headerLine "PROPERTY".toList name (some text)) =
      some (.property { name := String.ofList name, type := String.ofList text }) := by
  have notPou : PouHeader.read? (headerLine "PROPERTY".toList name (some text)) = none :=
    PouHeader.read?_of_literals (by simp [literal, headerLine]) (by simp [literal, headerLine])
      (by simp [literal, headerLine])
  have notMethod : MethodHeader.read? (headerLine "PROPERTY".toList name (some text)) = none := by
    simp [MethodHeader.read?, literal, headerLine]
  rw [read?, ClosingWord.read?_headerLine _ isName (by simpa using plain), notPou, notMethod,
    PropertyHeader.read?_headerLine isName.isName plain.typeText]
  rfl

end Reading

end StructuredText
