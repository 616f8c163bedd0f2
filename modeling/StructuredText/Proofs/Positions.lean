import StructuredText.Proofs.Alignment
import StructuredText.Proofs.Marks
import StructuredText.Proofs.NoBoundary

set_option autoImplicit false

namespace StructuredText

section Keywords

open Reader

variable {s : List Char}

theorem afterModifiers_eq_some {α : Type} {modifiers : List String} {read : List Char → Option α}
    {header : α} (found : afterModifiers modifiers read s = some header) :
    ∃ rest, read rest = some header := by
  fun_induction afterModifiers modifiers read s with
  | case1 s rest behind ih =>
    rcases Option.or_eq_some_iff.mp found with deeper | ⟨-, here⟩
    · exact ih deeper
    · exact ⟨s, here⟩
  | case2 s noModifier => exact ⟨s, found⟩

theorem literal_begins {α : Type} {keyword : String} {next : List Char → Option α} {header : α}
    (found : (literal keyword s).bind next = some header) : keyword.toList <+: s := by
  obtain ⟨rest, begins, -⟩ := Option.bind_eq_some_iff.mp found
  exact ⟨rest, (literal_eq_some begins).symm⟩

namespace PouHeader

theorem functionBlock?_kind {header : PouHeader} (found : functionBlock? s = some header) :
    header.kind = .functionBlock := by
  simp only [functionBlock?, Option.bind_eq_bind, Option.bind_eq_some_iff] at found
  obtain ⟨-, -, rest, -, named⟩ := found
  obtain ⟨name, read⟩ := afterModifiers_eq_some named
  simp only [functionBlock?.named, Option.bind_eq_bind, Option.bind_eq_some_iff,
    Option.some.injEq] at read
  obtain ⟨-, -, -, -, rfl⟩ := read
  rfl

theorem program?_kind {header : PouHeader} (found : program? s = some header) :
    header.kind = .program := by
  simp only [program?, Option.bind_eq_bind, Option.bind_eq_some_iff,
    Option.ite_none_right_eq_some, Option.some.injEq] at found
  obtain ⟨-, -, -, -, -, rfl⟩ := found
  rfl

theorem function?_kind {header : PouHeader} (found : function? s = some header) :
    header.kind = .function := by
  simp only [function?, Option.bind_eq_bind, Option.bind_eq_some_iff,
    Option.ite_none_right_eq_some, Option.some.injEq] at found
  obtain ⟨-, -, -, -, -, -, -, -, -, rfl⟩ := found
  rfl

theorem keyword_begins {header : PouHeader} (found : read? s = some header) :
    header.kind.keyword.toList <+: s := by
  rcases Option.or_eq_some_iff.mp found with block | ⟨-, other⟩
  · rw [functionBlock?_kind block]
    exact literal_begins block
  · rcases Option.or_eq_some_iff.mp other with program | ⟨-, function⟩
    · rw [program?_kind program]
      exact literal_begins program
    · rw [function?_kind function]
      exact literal_begins function

end PouHeader

theorem Boundary.keyword_begins {boundary : Boundary} {keyword : String}
    (found : Boundary.read? s = some boundary) (has : boundary.headerKeyword? = some keyword) :
    keyword.toList <+: s := by
  simp only [Boundary.read?, Option.or_eq_some_iff, Option.map_eq_some_iff] at found
  rcases found with ⟨word, -, rfl⟩ | ⟨-, ⟨header, read, rfl⟩ | ⟨-, ⟨header, read, rfl⟩ |
    ⟨-, ⟨header, read, rfl⟩ | ⟨-, header, -, rfl⟩⟩⟩⟩
  · cases has
  · cases has
    exact PouHeader.keyword_begins read
  · cases has
    exact literal_begins read
  · cases has
    exact literal_begins read
  · cases has

theorem Boundary.keyword_visible {boundary : Boundary} {keyword : String}
    (has : boundary.headerKeyword? = some keyword) :
    keyword.toList ≠ [] ∧ ∀ c ∈ keyword.toList, c ≠ ' ' := by
  cases boundary with
  | pou header =>
    cases has
    cases header.kind <;> simp [PouKind.keyword]
  | method header | property header =>
    cases has
    simp
  | closing word | varSection header => cases has

end Keywords

def sourceLine? (source : String) : Nat → Option (List Char)
  | 0 => none
  | index + 1 => (lines source.toList)[index]?

def Step.BeginsBehind (step : Step) (count : Nat) : Prop :=
  charsBefore? step.line.raw step.fragment.start = some count ∨
    step.text ≠ [] ∧ charsBefore? step.line.raw (step.fragment.stop - width step.text) = some count

def Mark.IsSound (source : String) : Mark → Prop
  | line number => 1 ≤ number ∧ number ≤ (lines source.toList).length
  | place pos => ∃ step ∈ steps source, ∃ count c,
    sourceLine? source pos.line = some step.line.raw ∧ pos = ⟨step.line.number, count + 1⟩ ∧
      step.line.raw[count]? = some c ∧ isBlank c = false ∧ step.BeginsBehind count
  | header keyword pos => ∃ raw,
    sourceLine? source pos.line = some raw ∧ 1 ≤ pos.column ∧
      keyword.toList <+: raw.drop (pos.column - 1)

section Fragments

variable {source : String} {step : Step} (member : step ∈ steps source)

include member

theorem sourceLine?_number : sourceLine? source step.line.number = some step.line.raw := by
  obtain ⟨-, index, isRaw, number⟩ := mem_stepsFrom member
  rw [number, Nat.zero_add]
  exact isRaw

theorem line_sound : (Mark.line step.line.number).IsSound source := by
  obtain ⟨-, index, isRaw, number⟩ := mem_stepsFrom member
  obtain ⟨inside, -⟩ := List.getElem?_eq_some_iff.mp isRaw
  constructor <;> omega

theorem place_sound {offset : Nat} {c : Char} (notBlank : isBlank c = false)
    (stands : step.line.HasAt offset [c])
    (begins : ∀ count, charsBefore? step.line.raw offset = some count → step.BeginsBehind count) :
    (charsBefore? step.line.raw offset).isSome ∧
      (Mark.place (step.line.position offset)).IsSound source := by
  obtain ⟨before, after, whole, isBoundary⟩ := stands.charsBefore?
  refine ⟨by simp [isBoundary], ?_⟩
  rw [SourceLine.position_eq isBoundary]
  refine ⟨step, member, before.length, c, sourceLine?_number member, rfl, ?_, notBlank,
    begins _ isBoundary⟩
  simp [whole]

theorem start_sound : (charsBefore? step.line.raw step.fragment.start).isSome ∧
    (Mark.place step.start).IsSound source := by
  obtain ⟨c, notBlank, stands⟩ := (mem_stepsFrom member).1.hasAt_start
  exact place_sound member notBlank stands fun _ => .inl

theorem text_sound (nonempty : step.text ≠ []) :
    (charsBefore? step.line.raw (step.fragment.stop - width step.text)).isSome ∧
      (Mark.place step.pos).IsSound source := by
  obtain ⟨c, notBlank, stands⟩ := (mem_stepsFrom member).1.hasAt_text nonempty
  exact place_sound member notBlank stands fun _ isBoundary => .inr ⟨nonempty, isBoundary⟩

theorem header_sound {keyword : String}
    (has : step.boundary?.bind Boundary.headerKeyword? = some keyword) :
    (Mark.header keyword step.pos).IsSound source := by
  obtain ⟨boundary, read, isHeader⟩ := Option.bind_eq_some_iff.mp has
  obtain ⟨nonempty, visible⟩ := Boundary.keyword_visible isHeader
  have stands := (mem_stepsFrom member).1.hasAt_word (Boundary.keyword_begins read isHeader)
    nonempty visible
  obtain ⟨before, after, whole, isBoundary⟩ := stands.charsBefore?
  rw [Step.pos, SourceLine.position_eq isBoundary]
  refine ⟨step.line.raw, sourceLine?_number member, by simp, ⟨after, ?_⟩⟩
  simp [whole]

theorem step_marks_sound : ∀ mark ∈ step.marks, mark.IsSound source := by
  have line := line_sound member
  obtain ⟨-, start⟩ := start_sound member
  simp only [Step.marks, Position.marks, List.forall_mem_append, List.forall_mem_cons,
    List.not_mem_nil, false_imp_iff, implies_true, and_true]
  refine ⟨⟨⟨line, start, line⟩, ?_⟩, ?_⟩
  · split
    · simp
    · rename_i nonempty
      obtain ⟨-, text⟩ := text_sound member nonempty
      simpa using ⟨text, line⟩
  · intro mark isHeader
    obtain ⟨keyword, has, rfl⟩ := Option.map_eq_some_iff.mp (Option.mem_toList.mp isHeader)
    exact header_sound member has

end Fragments

theorem unterminated_sound (source : String) :
    ∀ mark ∈ (unterminated 0 none (lines source.toList)).flatMap Diagnostic.marks,
      mark.IsSound source := by
  intro mark member
  obtain ⟨diagnostic, isReported, isMark⟩ := List.mem_flatMap.mp member
  simp only [unterminated, Option.mem_toList, Option.map_eq_some_iff] at isReported
  obtain ⟨comment, isOpen, rfl⟩ := isReported
  obtain rfl := List.mem_singleton.mp isMark
  cases shape : lines source.toList with
  | nil =>
    rw [shape] at isOpen
    cases isOpen
  | cons raw rest => simp [Mark.IsSound, shape]

/-- All positions in a document are right, and no offset into a line has to be taken for a column
because no character starts there. -/
theorem positions_sound (source : String) :
    (∀ mark ∈ (parse source).marks, mark.IsSound source) ∧
      ∀ step ∈ steps source,
        (charsBefore? step.line.raw step.fragment.start).isSome ∧
          (step.text ≠ [] →
            (charsBefore? step.line.raw (step.fragment.stop - width step.text)).isSome) := by
  refine ⟨?_, fun step member => ⟨?_, fun nonempty => ?_⟩⟩
  · have known := (marked_stateAfter (List.Subset.refl ((steps source).flatMap Step.marks))).finish
    have unclosed := unterminated_sound source
    intro mark isMark
    rw [parse_eq_parseLines, parseLines_eq_run] at isMark
    have inside : mark ∈ (steps source).flatMap Step.marks ++
        (unterminated 0 none (lines source.toList)).flatMap Diagnostic.marks :=
      (Document.marks_report.mpr ⟨List.Subset.trans known (List.subset_append_left _ _),
        List.subset_append_right _ _⟩) isMark
    rcases List.mem_append.mp inside with fromStep | fromComment
    · obtain ⟨step, member, ofStep⟩ := List.mem_flatMap.mp fromStep
      exact step_marks_sound member mark ofStep
    · exact unclosed mark fromComment
  · exact (start_sound member).1
  · exact (text_sound member nonempty).1

-- A pragma and a comment with characters of two bytes stand before the code.
example : (parse "\x7bgröße\x7d PROGRAM p\n\t(* ü *) x := 1\nEND_PROGRAM").marks =
    headerMarks "PROGRAM" ⟨1, 9⟩ ++ [.line 2] ++ Position.marks ⟨2, 10⟩ := by
  decide +kernel

end StructuredText
