import StructuredText.Proofs.CommentFree
import StructuredText.Proofs.RecasedText

set_option autoImplicit false

namespace StructuredText

namespace Segment

def capitalized : Segment → Segment
  | code text => code (capitals text)
  | comment text note stillOpen => comment (capitals text) (capitals note) stillOpen

theorem text_capitalized (part : Segment) : part.capitalized.text = capitals part.text := by
  cases part <;> rfl

theorem stillOpen?_capitalized (part : Segment) :
    part.capitalized.stillOpen? = part.stillOpen? := by
  cases part <;> rfl

theorem splitAtCloser_capitals (style : CommentStyle) (s : List Char) :
    style.splitAtCloser (capitals s) =
      (style.splitAtCloser s).map (Prod.map capitals capitals) := by
  have noLetter : style.outer.2.isAlpha = false := by
    cases style <;> decide
  exact splitAtPair_capitals (by decide) noLetter s

theorem capitals_marks (style : CommentStyle) :
    capitals style.opener = style.opener ∧ capitals style.closer = style.closer := by
  cases style <;> decide

theorem block_capitals (style : CommentStyle) (s : List Char) :
    block style (capitals s) = ((block style s).1.capitalized, capitals (block style s).2) := by
  obtain ⟨opener, closer⟩ := capitals_marks style
  simp only [block, splitAtCloser_capitals]
  cases style.splitAtCloser s with
  | none => simp [capitalized, opener]
  | some parts => simp [capitalized, opener, closer]

theorem next_capitals (c : Char) (s : List Char) :
    next c.toUpper (capitals s) = ((next c s).1.capitalized, capitals (next c s).2) := by
  cases opens : stringClose? c with
  | some close =>
    have noLetter := isAlpha_of_quoteClose? (quoteClose?_of_string opens)
    have alsoOpens : stringClose? c.toUpper = some close := by rw [stringClose?_toUpper, opens]
    rw [next_of_string opens, next_of_string alsoOpens, splitQuoted_capitals noLetter]
    rfl
  | none =>
    have alsoUnquoted : stringClose? c.toUpper = none := by rw [stringClose?_toUpper, opens]
    have slash (d : Char) : d.toUpper = '/' ↔ d = '/' := toUpper_eq_iff (by decide)
    have paren (d : Char) : d.toUpper = '(' ↔ d = '(' := toUpper_eq_iff (by decide)
    have star (d : Char) : d.toUpper = '*' ↔ d = '*' := toUpper_eq_iff (by decide)
    by_cases apart : ∀ d ∈ s.head?, Apart c d
    · have alsoApart : ∀ d ∈ (capitals s).head?, Apart c.toUpper d := by
        cases s with
        | nil => simp
        | cons d s => simpa [Apart, slash, paren, star] using apart d rfl
      rw [next_of_apart opens apart, next_of_apart alsoUnquoted alsoApart]
      rfl
    · obtain ⟨rest, ⟨rfl, rfl⟩ | ⟨rfl, rfl⟩ | ⟨rfl, rfl⟩⟩ := comment_of_not_apart apart
      · rfl
      · exact block_capitals .paren rest
      · exact block_capitals .slash rest

theorem segments_capitals (s : List Char) :
    segments (capitals s) = (segments s).map capitalized := by
  fun_induction segments s with
  | case1 => simp [segments]
  | case2 c s ih => rw [capitals_cons, segments, next_capitals, ih, List.map_cons]

end Segment

section Strip

def lineSegments (carried : Option OpenComment) (line : List Char) : List Segment :=
  match carried with
  | none => segments line
  | some comment =>
    match comment.style.splitAtCloser line with
    | some (note, rest) => .comment (note ++ comment.style.closer) note none :: segments rest
    | none => [.comment line line (some comment.style)]

theorem strip_eq_ofSegments (carried : Option OpenComment) (line : List Char) (number : Nat) :
    (strip carried line number).1 = .ofSegments (lineSegments carried line) := by
  cases carried with
  | none => rfl
  | some comment =>
    cases split : comment.style.splitAtCloser line <;>
      simp [strip, strip.finish, lineSegments, split]

theorem flatMap_text_lineSegments (carried : Option OpenComment) (line : List Char) :
    (lineSegments carried line).flatMap Segment.text = line := by
  cases carried with
  | none => exact flatMap_text_segments line
  | some comment =>
    cases split : comment.style.splitAtCloser line with
    | none => simp [lineSegments, split, Segment.text]
    | some parts =>
      have whole := splitAtPair_eq split
      simp only [lineSegments, split, List.flatMap_cons, Segment.text, flatMap_text_segments]
      simp [whole, CommentStyle.closer]

theorem lineSegments_capitals (carried : Option OpenComment) (line : List Char) :
    lineSegments carried (capitals line) =
      (lineSegments carried line).map Segment.capitalized := by
  unfold lineSegments
  cases carried with
  | none => exact Segment.segments_capitals line
  | some comment =>
    simp only [Segment.splitAtCloser_capitals]
    cases comment.style.splitAtCloser line with
    | none => rfl
    | some parts =>
      obtain ⟨-, closer⟩ := Segment.capitals_marks comment.style
      simp [Segment.capitalized, Segment.segments_capitals, closer]

theorem strip_capitals (carried : Option OpenComment) (line : List Char) (number : Nat) :
    (strip carried (capitals line) number).2 = (strip carried line number).2 := by
  have lastOpen (parts : List Segment) :
      (strip.finish number (parts.map Segment.capitalized)).2 = (strip.finish number parts).2 := by
    simp only [strip.finish, List.getLast?_map, Option.bind_map]
    congr 2
    exact funext Segment.stillOpen?_capitalized
  unfold strip
  cases carried with
  | none =>
    simp only [Segment.segments_capitals]
    exact lastOpen (segments line)
  | some comment =>
    simp only [Segment.splitAtCloser_capitals]
    cases comment.style.splitAtCloser line with
    | none => rfl
    | some parts =>
      have parts := lastOpen
        (.comment (parts.1 ++ comment.style.closer) parts.1 none :: segments parts.2)
      obtain ⟨-, closer⟩ := Segment.capitals_marks comment.style
      simpa [Segment.capitalized, Segment.segments_capitals, closer] using parts

theorem strip_of_letters {line other : List Char} (same : capitals line = capitals other)
    (carried : Option OpenComment) (number : Nat) :
    (strip carried line number).2 = (strip carried other number).2 := by
  rw [← strip_capitals, same, strip_capitals]

theorem Recased.append_blanks {s t u v : List Char} (before : Recased s t) (after : Recased u v)
    {count : Nat} (positive : 0 < count) :
    Recased (s ++ (List.replicate count ' ' ++ u)) (t ++ (List.replicate count ' ' ++ v)) := by
  have blanks : ∀ c ∈ List.replicate count ' ', isNameChar c = false := by
    intro c member
    rw [List.eq_of_mem_replicate member]
    decide
  have following : Recased (List.replicate count ' ' ++ u) (List.replicate count ' ' ++ v) :=
    (Recased.refl _).append after
      (.inl fun c last => blanks c (List.mem_of_mem_getLast? last))
  refine before.append following (.inr fun c first => blanks c ?_)
  obtain ⟨count, rfl⟩ := Nat.exists_eq_succ_of_ne_zero (Nat.ne_of_gt positive)
  simp only [List.replicate_succ, List.cons_append, List.head?_cons, Option.mem_def,
    Option.some.injEq] at first
  simp [← first]

theorem recased_blanked {parts others : List Segment}
    (same : parts.map Segment.capitalized = others.map Segment.capitalized)
    {begun other : List Char}
    (alike : Recased (begun ++ parts.flatMap Segment.text) (other ++ others.flatMap Segment.text))
    (lengths : begun.length = other.length) :
    Recased (begun ++ parts.flatMap Segment.blanked)
      (other ++ others.flatMap Segment.blanked) := by
  induction parts generalizing others begun other with
  | nil =>
    obtain rfl : others = [] := List.map_eq_nil_iff.mp same.symm
    exact alike
  | cons part parts ih =>
    obtain ⟨second, others, rfl, isPart, rest⟩ := List.map_eq_cons_iff.mp same.symm
    have sameLength : part.text.length = second.text.length := by
      simpa only [Segment.text_capitalized, length_capitals] using
        congrArg (·.text.length) isPart.symm
    rw [List.flatMap_cons, List.flatMap_cons] at alike
    cases part with
    | code text =>
      cases second with
      | comment note text stillOpen => cases isPart
      | code otherText =>
        simp only [Segment.text, Segment.blanked, List.flatMap_cons, ← List.append_assoc]
          at alike sameLength ⊢
        exact ih rest.symm alike (by simp [lengths, sameLength])
    | comment text note stillOpen =>
      cases second with
      | code text => cases isPart
      | comment otherText otherNote otherOpen =>
        obtain ⟨before, behind⟩ := alike.parts lengths
        obtain ⟨comment, behind⟩ := behind.parts sameLength
        have sameWidth : width text = width otherText := comment.width_eq
        simp only [List.flatMap_cons, Segment.blanked, ← sameWidth]
        by_cases noText : text = []
        · have noOther : otherText = [] := comment.nil_iff.mp noText
          have shorter :=
            ih rest.symm (by simpa [noText, noOther, Segment.text] using alike) lengths
          simpa [noText] using shorter
        · have after : Recased ([] ++ parts.flatMap Segment.blanked)
              ([] ++ others.flatMap Segment.blanked) := ih rest.symm behind rfl
          exact before.append_blanks after (width_pos noText)

theorem Recased.code {line other : List Char} (alike : Recased line other)
    (carried : Option OpenComment) (number : Nat) :
    Recased (strip carried line number).1.code (strip carried other number).1.code := by
  have same : (lineSegments carried line).map Segment.capitalized =
      (lineSegments carried other).map Segment.capitalized := by
    rw [← lineSegments_capitals, alike.letters, lineSegments_capitals]
  have whole : Recased ([] ++ (lineSegments carried line).flatMap Segment.text)
      ([] ++ (lineSegments carried other).flatMap Segment.text) := by
    simpa only [List.nil_append, flatMap_text_lineSegments] using alike
  have blanked := recased_blanked same whole rfl
  rw [strip_eq_ofSegments, strip_eq_ofSegments]
  exact blanked

end Strip

end StructuredText
