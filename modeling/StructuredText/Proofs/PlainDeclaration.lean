import StructuredText.Proofs.LineTexts
import StructuredText.Proofs.TypeReading
import StructuredText.Render

set_option autoImplicit false

namespace StructuredText

open Reader

structure Variable.IsPlain (v : Variable) : Prop where
  name : PlainName v.name.toList
  type : PlainType v.type.toList
  value : ∀ value ∈ v.initialValue, InlineText value.toList
  comment : ∀ comment ∈ v.comment, '\n' ∉ comment.toList ∧ comment.toList.getLast? ≠ some '\r'

instance (v : Variable) : Decidable v.IsPlain :=
  decidable_of_iff
    (PlainName v.name.toList ∧ PlainType v.type.toList ∧
      (∀ value ∈ v.initialValue, InlineText value.toList) ∧
      ∀ comment ∈ v.comment, '\n' ∉ comment.toList ∧ comment.toList.getLast? ≠ some '\r')
    ⟨fun ⟨name, type, value, comment⟩ => ⟨name, type, value, comment⟩,
      fun plain => ⟨plain.name, plain.type, plain.value, plain.comment⟩⟩

structure ValueText (s : List Char) : Prop where
  nonempty : s ≠ []
  trimmed : trim s = s
  oneLine : '\n' ∉ s

instance (s : List Char) : Decidable (ValueText s) :=
  decidable_of_iff (s ≠ [] ∧ trim s = s ∧ '\n' ∉ s)
    ⟨fun ⟨nonempty, trimmed, oneLine⟩ => ⟨nonempty, trimmed, oneLine⟩,
      fun value => ⟨value.nonempty, value.trimmed, value.oneLine⟩⟩

theorem InlineText.valueText {s : List Char} (inline : InlineText s) : ValueText s :=
  ⟨inline.nonempty, inline.trimmed, inline.oneLine⟩

def valueSuffix : Option (List Char) → List Char
  | none => []
  | some value => ' ' :: ':' :: '=' :: ' ' :: value

def declarationText (name type : List Char) (value : Option (List Char)) : List Char :=
  name ++ ' ' :: ':' :: ' ' :: (type ++ valueSuffix value)

section Text

variable {name type : List Char} {value : Option (List Char)}

theorem endsType_valueSuffix (value : Option (List Char)) :
    EndsType (valueSuffix value ++ [';']) := by
  cases value with
  | none => exact ⟨by simp [valueSuffix]; decide, ';', [], rfl, .inr rfl⟩
  | some value =>
    exact ⟨by simp [valueSuffix]; decide, ':', '=' :: ' ' :: (value ++ [';']), rfl, .inl rfl⟩

theorem valueSuffix_apart (value : Option (List Char)) :
    ∀ d ∈ (valueSuffix value).head?, isNameChar d = false := by
  cases value with
  | none => simp [valueSuffix]
  | some value => simp [valueSuffix]; decide

theorem onePiece_valueSuffix (inline : ∀ text ∈ value, InlineText text) :
    OnePiece (valueSuffix value) := by
  cases value with
  | none => exact Uncut.onePiece ⟨by simp [valueSuffix], by decide⟩
  | some value =>
    have isValue := (inline value rfl).toOnePiece
    refine .cons (.cons (.cons (.cons isValue ?_ ?_) ?_ ?_) ?_ ?_) ?_ ?_ <;> decide

theorem onePiece_declarationText (isName : PlainName name) (isType : PlainType type)
    (inline : ∀ text ∈ value, InlineText text) : OnePiece (declarationText name type value) := by
  have behind : OnePiece (' ' :: ':' :: ' ' :: (type ++ valueSuffix value)) := by
    have typed := isType.uncut.onePiece.append (onePiece_valueSuffix inline)
      (valueSuffix_apart value)
    refine .cons (.cons (.cons typed ?_ ?_) ?_ ?_) ?_ ?_ <;> decide
  exact isName.plainText.uncut.onePiece.append behind (by simp; decide)

theorem settled_declarationText (isName : PlainName name) (isType : PlainType type)
    (inline : ∀ text ∈ value, InlineText text) :
    Settled (declarationText name type value ++ [';']) := by
  have ending : Settled [';'] := settled_of_all (by decide)
  have typed : Settled (type ++ (valueSuffix value ++ [';'])) := by
    cases value with
    | none => exact isType.bare.settled.append_cons ending (by decide)
    | some value =>
      have sign : Settled [' ', ':', '=', ' '] := settled_of_all (by decide)
      have valued : Settled ([' ', ':', '=', ' '] ++ (value ++ [';'])) :=
        sign.append ((inline value rfl).settled.append_cons ending (by decide)) (by simp [Apart])
      exact isType.bare.settled.append_cons valued (by decide)
  have colon : Settled [' ', ':', ' '] := settled_of_all (by decide)
  have behind : Settled ([' ', ':', ' '] ++ (type ++ (valueSuffix value ++ [';']))) :=
    colon.append typed (by simp [Apart])
  have whole := isName.plainText.bare.settled.append_cons behind (by decide)
  simpa [declarationText] using whole

theorem fragments_declarationText (isName : PlainName name) (isType : PlainType type)
    (inline : ∀ text ∈ value, InlineText text) :
    (fragments (declarationText name type value ++ [';'])).map Fragment.text =
      [declarationText name type value ++ [';']] := by
  refine fragments_terminated (onePiece_declarationText isName isType inline) ?_ ?_
  · simp [declarationText]
  · rw [declarationText, List.head?_append_of_ne_nil _ isName.nonempty]
    exact isName.plainText.head_not_blank

theorem splitAtChar_of_absent {close : Char} {before : List Char} (absent : close ∉ before)
    (after : List Char) : splitAtChar close (before ++ close :: after) = some (before, after) := by
  induction before with
  | nil => simp [splitAtChar]
  | cons c before ih =>
    obtain ⟨notHere, notLater⟩ := not_or.mp (List.mem_cons.not.mp absent)
    simp [splitAtChar, Ne.symm notHere, ih notLater]

theorem trim_space_cons {text : List Char} (trimmed : trim text = text) :
    trim (' ' :: text) = text := by
  rw [← List.singleton_append, trim_blank_append isBlank_of_mem_space, trimmed]

theorem initialiser?_valueSuffix (values : ∀ text ∈ value, ValueText text) :
    Declaration.initialiser? (trimStart (valueSuffix value ++ [';'])) =
      some (value.map String.ofList) := by
  cases value with
  | none => rfl
  | some value =>
    have isValue := values value rfl
    have begins : trimStart (valueSuffix (some value) ++ [';']) =
        ":=".toList ++ ' ' :: (value ++ [';']) := rfl
    have body : (' ' :: (value ++ [';'])).dropLast = ' ' :: value := by
      rw [← List.cons_append, List.dropLast_concat]
    have last : (' ' :: (value ++ [';'])).getLast? = some ';' := by
      rw [← List.cons_append, List.getLast?_concat]
    rw [begins, Declaration.initialiser?, literal_append, if_neg (by simp)]
    simp only [Option.bind_eq_bind, Option.bind_some, body, trim_space_cons isValue.trimmed, last]
    simp [isValue.nonempty, isValue.oneLine]

theorem Declaration.read?_declarationText (named : isName name = true)
    (reads : TypeExpr.reader type = some []) (values : ∀ text ∈ value, ValueText text) :
    read? (declarationText name type value ++ [';']) =
      some { names := [String.ofList name], type := String.ofList (squash type),
             initialValue := value.map String.ofList } := by
  have shape : declarationText name type value ++ [';'] =
      (name ++ [' ']) ++ ':' :: (' ' :: (type ++ (valueSuffix value ++ [';']))) := by
    simp [declarationText]
  have letters := isName_characters named
  have absent {sign : Char} (notName : isNameChar sign = false) (notSpace : sign ≠ ' ') :
      sign ∉ name ++ [' '] := by
    rw [List.mem_append, List.mem_singleton]
    rintro (member | rfl)
    · rw [letters sign member] at notName
      cases notName
    · exact notSpace rfl
  have noComma : ∀ c ∈ name ++ [' '], (c == ',') = false := by
    intro c member
    rw [beq_eq_false_iff_ne]
    rintro rfl
    exact absent (by decide) (by decide) member
  have first : trimStart (name ++ [' ']) = name ++ [' '] := by
    obtain ⟨c, rest, rfl, start, -⟩ := isName_cons named
    apply trimStart_of_head
    rintro d ⟨⟩
    exact isBlank_of_name (isNameChar_of_isNameStart start)
  have trimmed : trim (name ++ [' ']) = name := by
    rw [trim_append_blank isBlank_of_mem_space, trim_of_name letters]
  rw [read?, shape, splitAtChar_of_absent (absent (by decide) (by decide))]
  simp only [Option.bind_eq_bind, Option.bind_some, TypeExpr.trimStart_space_append reads,
    TypeExpr.read?_append reads (endsType_valueSuffix value), initialiser?_valueSuffix values,
    splitWhere_of_uncut noComma, first, List.map_cons, List.map_nil, trimmed]
  simp [named]

theorem Boundary.read?_declarationText (isName : PlainName name) :
    read? (declarationText name type value ++ [';']) = none := by
  have shape : declarationText name type value ++ [';'] =
      name ++ ' ' :: (':' :: ' ' :: (type ++ valueSuffix value) ++ [';']) := by
    simp [declarationText]
  rw [shape]
  refine read?_of_unbegun (unbegun_append (absent_of_uncut isName.plainText.words) ?_)
  simp
  decide

theorem withoutPragmas_declarationText (isName : PlainName name) :
    withoutPragmas (declarationText name type value ++ [';']) =
      declarationText name type value ++ [';'] := by
  refine withoutPragmas_of_head ?_
  rw [declarationText, List.append_assoc, List.head?_append_of_ne_nil _ isName.nonempty]
  intro begins
  have closes := (isName.plainText.bare.characters _ (List.mem_of_mem_head? begins)).2
  cases closes

end Text

section LineComment

theorem segments_lineComment (note : List Char) :
    segments ('/' :: '/' :: note) = [.comment ('/' :: '/' :: note) note none] := by
  have next : Segment.next '/' ('/' :: note) = (.comment ('/' :: '/' :: note) note none, []) := rfl
  rw [segments, next, segments]

variable {code : List Char}

theorem ReadsAs.lineComment {text : List Char} (reads : ReadsAs code text) (settled : Settled code)
    (note : List Char) : ReadsAs ((code ++ [' ']) ++ '/' :: '/' :: note) text := by
  have ending : Settled [' '] := settled_of_all (by decide)
  have spaced : Settled (code ++ [' ']) := settled.append_cons ending (by decide)
  have apart : ∀ c ∈ (code ++ [' ']).getLast?, ∀ d ∈ ('/' :: '/' :: note).head?, Apart c d := by
    simp [Apart]
  have blanked : blankedCode ('/' :: '/' :: note) =
      List.replicate (width ('/' :: '/' :: note)) ' ' := by
    simp [blankedCode, segments_lineComment, Segment.blanked]
  have blank : ∀ c ∈ ' ' :: List.replicate (width ('/' :: '/' :: note)) ' ', isBlank c = true := by
    intro c member
    rcases List.mem_cons.mp member with rfl | member
    · decide
    · rw [List.eq_of_mem_replicate member]
      decide
  refine ⟨isClosed_append spaced apart ?_, ?_⟩
  · rw [IsClosed, segments_lineComment]
    rfl
  · rw [lineTexts_eq, blankedCode_append spaced apart, blanked, List.append_assoc,
      List.singleton_append, map_text_fragments_append_blank blank, ← reads.single, lineTexts_eq,
      settled.blankedCode]

end LineComment

namespace Variable

variable {v : Variable}

def text (v : Variable) : List Char :=
  declarationText v.name.toList v.type.toList (v.initialValue.map String.toList) ++ [';']

theorem toList_declaration (v : Variable) :
    v.declaration.toList = v.text ++
      match v.comment with
      | none => []
      | some comment => ' ' :: '/' :: '/' :: ' ' :: comment.toList := by
  obtain ⟨name, type, scope, initialValue, comment, line⟩ := v
  cases initialValue <;> cases comment <;>
    simp [declaration, text, declarationText, valueSuffix]

namespace IsPlain

variable (plain : v.IsPlain)

include plain

theorem inlineValue : ∀ text ∈ v.initialValue.map String.toList, InlineText text := by
  intro text member
  obtain ⟨value, isValue, rfl⟩ := Option.map_eq_some_iff.mp member
  exact plain.value value isValue

theorem settled_text : Settled v.text :=
  settled_declarationText plain.name plain.type plain.inlineValue

theorem read?_text :
    Declaration.read? v.text =
      some { names := [v.name], type := v.type, initialValue := v.initialValue } := by
  have read := Declaration.read?_declarationText plain.name.isName plain.type.typeText.reads
    fun text member => (plain.inlineValue text member).valueText
  simpa [text, Function.comp_def, plain.type.typeText.squashed] using read

theorem boundary_text : Boundary.read? v.text = none :=
  Boundary.read?_declarationText plain.name

theorem readsAs_declaration : ReadsAs v.declaration.toList v.text := by
  have alone : ReadsAs v.text v.text :=
    plain.settled_text.readsAs (withoutPragmas_declarationText plain.name)
      (fragments_declarationText plain.name plain.type plain.inlineValue)
  rw [toList_declaration]
  cases v.comment with
  | none => simpa using alone
  | some comment => simpa using alone.lineComment plain.settled_text (' ' :: comment.toList)

theorem oneLine_text : '\n' ∉ v.text := by
  have value : '\n' ∉ valueSuffix (v.initialValue.map String.toList) := by
    cases isValue : v.initialValue with
    | none => simp [valueSuffix]
    | some value => simpa [valueSuffix] using (plain.value value isValue).oneLine
  simp [text, declarationText, plain.name.plainText.oneLine, plain.type.oneLine, value]

theorem inLine_declaration :
    '\n' ∉ v.declaration.toList ∧ v.declaration.toList.getLast? ≠ some '\r' := by
  have noBreak : '\n' ∉ v.text := plain.oneLine_text
  rw [toList_declaration]
  cases isComment : v.comment with
  | none =>
    refine ⟨by simpa using noBreak, ?_⟩
    rw [List.append_nil, text, List.getLast?_concat]
    decide
  | some comment =>
    obtain ⟨oneLine, last⟩ := plain.comment comment isComment
    refine ⟨by simpa [noBreak] using oneLine, ?_⟩
    cases ends : comment.toList.getLast? with
    | none => simp [List.getLast?_append, List.getLast?_cons, ends]
    | some c =>
      rw [ends] at last
      simpa [List.getLast?_append, List.getLast?_cons, ends] using last

end IsPlain

end Variable

end StructuredText
