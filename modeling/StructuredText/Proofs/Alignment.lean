import StructuredText.Proofs.FragmentTexts
import StructuredText.Proofs.Reading

set_option autoImplicit false

namespace StructuredText

inductive Overlays : List Char → List Char → Prop where
  | nil : Overlays [] []
  | keep (c : Char) {raw code : List Char} (rest : Overlays raw code) :
    Overlays (c :: raw) (c :: code)
  | blank (text : List Char) {raw code : List Char} (rest : Overlays raw code) :
    Overlays (text ++ raw) (List.replicate (width text) ' ' ++ code)

namespace Overlays

theorem append_left (kept : List Char) {raw code : List Char} (rest : Overlays raw code) :
    Overlays (kept ++ raw) (kept ++ code) := by
  induction kept with
  | nil => exact rest
  | cons c kept ih => exact .keep c ih

theorem flatMap (parts : List Segment) :
    Overlays (parts.flatMap Segment.text) (parts.flatMap Segment.blanked) := by
  induction parts with
  | nil => exact .nil
  | cons part parts ih =>
    cases part with
    | code text => exact ih.append_left text
    | comment text note stillOpen => exact .blank text ih

theorem strip (carried : Option OpenComment) (raw : List Char) (number : Nat) :
    Overlays raw (strip carried raw number).1.code := by
  unfold StructuredText.strip
  split
  · have parts := flatMap (segments raw)
    rwa [flatMap_text_segments] at parts
  · rename_i comment
    split
    · rename_i note rest split
      have parts := flatMap (.comment (note ++ comment.style.closer) note none :: segments rest)
      rw [List.flatMap_cons, flatMap_text_segments] at parts
      have whole : raw = (note ++ comment.style.closer) ++ rest := by
        simp [splitAtPair_eq split, CommentStyle.closer]
      rw [whole]
      exact parts
    · have parts := flatMap [.comment raw raw (some comment.style)]
      rw [List.flatMap_singleton] at parts
      exact parts

variable {raw : List Char}

theorem split {before after : List Char} {c : Char} (overlays : Overlays raw (before ++ c :: after))
    (visible : c ≠ ' ') :
    ∃ front back, raw = front ++ c :: back ∧ width front = width before ∧ Overlays back after := by
  generalize whole : before ++ c :: after = code at overlays
  -- Blanked text is as wide as what stood there, so the two fronts keep the same width.
  induction overlays generalizing before with
  | nil => simp at whole
  | @keep d raw code rest ih =>
    cases before with
    | nil =>
      obtain ⟨rfl, rfl⟩ := List.cons.inj whole
      exact ⟨[], raw, rfl, rfl, rest⟩
    | cons e before =>
      obtain ⟨rfl, later⟩ := List.cons.inj whole
      obtain ⟨front, back, rfl, same, overlays⟩ := ih later
      exact ⟨e :: front, back, rfl, by simp [same], overlays⟩
  | @blank text raw code rest ih =>
    have blanks : width (List.replicate (width text) ' ') = width text := by
      generalize width text = count
      induction count with
      | zero => rfl
      | succ count ih => rw [List.replicate_succ, width_cons, ih, Nat.add_comm]; rfl
    rcases List.append_eq_append_iff.mp whole with ⟨tail, spaces, split⟩ | ⟨tail, rfl, split⟩
    · -- The character would be one of the spaces.
      cases tail with
      | nil =>
        obtain ⟨front, back, rfl, same, overlays⟩ := @ih [] split
        refine ⟨text ++ front, back, by simp, ?_, overlays⟩
        rw [List.append_nil] at spaces
        rw [width_append, same, ← spaces, blanks]
        rfl
      | cons d tail =>
        obtain ⟨rfl, -⟩ := List.cons.inj split
        have inside : c ∈ List.replicate (width text) ' ' := by simp [spaces]
        exact absurd (List.eq_of_mem_replicate inside) visible
    · obtain ⟨front, back, rfl, same, overlays⟩ := ih split.symm
      refine ⟨text ++ front, back, by simp, ?_, overlays⟩
      rw [width_append, width_append, same, blanks]

theorem word {before word after : List Char} (overlays : Overlays raw (before ++ word ++ after))
    (nonempty : word ≠ []) (visible : ∀ c ∈ word, c ≠ ' ') :
    ∃ front back, raw = front ++ word ++ back ∧ width front = width before := by
  -- The first character is found by its offset, and each other one right behind the last.
  have follows {raw after : List Char} (word : List Char) (visible : ∀ c ∈ word, c ≠ ' ')
      (overlays : Overlays raw (word ++ after)) : ∃ back, raw = word ++ back := by
    induction word generalizing raw with
    | nil => exact ⟨raw, rfl⟩
    | cons c word ih =>
      obtain ⟨front, back, rfl, same, rest⟩ :=
        @split _ [] _ _ overlays (visible c List.mem_cons_self)
      obtain ⟨later, rfl⟩ := ih (fun d member => visible d (List.mem_cons_of_mem c member)) rest
      cases front with
      | nil => exact ⟨later, rfl⟩
      | cons d front =>
        have positive := d.utf8Size_pos
        simp only [width_cons, width_nil] at same
        omega
  obtain ⟨c, word, rfl⟩ := List.exists_cons_of_ne_nil nonempty
  rw [List.append_assoc] at overlays
  obtain ⟨front, back, rfl, same, rest⟩ := overlays.split (visible c List.mem_cons_self)
  obtain ⟨later, rfl⟩ :=
    follows word (fun d member => visible d (List.mem_cons_of_mem c member)) rest
  exact ⟨front, later, by simp, same⟩

end Overlays

structure Fragment.StandsIn (fragment : Fragment) (offset : Nat) (code : List Char) : Prop where
  place : ∃ before after, code = before ++ fragment.text ++ after ∧
    fragment.start = offset + width before
  stop : fragment.stop = fragment.start + width fragment.text
  nonempty : fragment.text ≠ []
  visible : ∀ c ∈ fragment.text.head?, isBlank c = false

theorem standsIn_fragmentsFrom {offset : Nat} {texts : List (List Char)} {fragment : Fragment}
    (member : fragment ∈ fragmentsFrom offset texts) :
    fragment.StandsIn offset texts.flatten := by
  induction texts generalizing offset with
  | nil => cases member
  | cons text texts ih =>
    have later (inside : fragment ∈ fragmentsFrom (offset + width text) texts) :
        fragment.StandsIn offset (text :: texts).flatten := by
      obtain ⟨⟨before, after, whole, start⟩, stop, nonempty, visible⟩ := ih inside
      refine ⟨⟨text ++ before, after, by simp [whole], ?_⟩, stop, nonempty, visible⟩
      rw [start, width_append, Nat.add_assoc]
    simp only [fragmentsFrom] at member
    split at member
    · exact later member
    · rename_i isFragment
      rcases List.mem_cons.mp member with rfl | inside
      · obtain ⟨tail, split, -⟩ := trimEnd_append (trimStart text)
        refine ⟨⟨text.takeWhile isBlank, tail ++ texts.flatten, ?_, rfl⟩, rfl,
          fun blank => isFragment (.inl blank), head_trim text⟩
        have whole : text.takeWhile isBlank ++ trimStart text = text :=
          List.takeWhile_append_dropWhile
        rw [List.flatten_cons]
        nth_rewrite 1 [← whole]
        rw [split]
        simp [trim]
      · exact later inside

theorem standsIn_fragments {code : List Char} {fragment : Fragment}
    (member : fragment ∈ fragments code) : fragment.StandsIn 0 code := by
  have found : fragment.StandsIn 0 (pieceTexts code).flatten := standsIn_fragmentsFrom member
  rwa [flatten_pieceTexts] at found

theorem withoutPragmas_suffix (s : List Char) :
    withoutPragmas s <:+ s ∧
      ((∀ c ∈ s.head?, isBlank c = false) → ∀ c ∈ (withoutPragmas s).head?, isBlank c = false) := by
  fun_induction withoutPragmas s with
  | case1 rest before after split ih =>
    obtain ⟨suffix, visible⟩ := ih
    have skipped : trimStart after <:+ '\x7b' :: rest := by
      refine (trimStart_suffix after).trans ?_
      rw [splitAtChar_eq split]
      exact ⟨'\x7b' :: before ++ ['\x7d'], by simp⟩
    exact ⟨suffix.trans skipped, fun _ => visible (stops_dropWhile isBlank after)⟩
  | case2 rest unclosed => simp
  | case3 s noPragma => exact ⟨List.suffix_refl s, id⟩

def SourceLine.HasAt (line : SourceLine) (offset : Nat) (text : List Char) : Prop :=
  ∃ before after, line.raw = before ++ text ++ after ∧ width before = offset

theorem SourceLine.HasAt.charsBefore? {line : SourceLine} {offset : Nat} {text : List Char}
    (stands : line.HasAt offset text) :
    ∃ before after, line.raw = before ++ text ++ after ∧
      charsBefore? line.raw offset = some before.length := by
  obtain ⟨before, after, whole, rfl⟩ := stands
  refine ⟨before, after, whole, ?_⟩
  rw [whole, List.append_assoc, charsBefore?_width]

theorem SourceLine.position_eq {line : SourceLine} {offset count : Nat}
    (isBoundary : charsBefore? line.raw offset = some count) :
    line.position offset = ⟨line.number, count + 1⟩ := by
  simp [position, isBoundary]

structure Step.IsPart (step : Step) : Prop where
  overlays : Overlays step.line.raw step.line.stripped.code
  member : step.fragment ∈ fragments step.line.stripped.code

namespace Step.IsPart

variable {step : Step} (isPart : step.IsPart)

include isPart

theorem hasAt (skipped rest : List Char) {word : List Char}
    (split : step.fragment.text = skipped ++ word ++ rest) (nonempty : word ≠ [])
    (visible : ∀ c ∈ word, c ≠ ' ') :
    step.line.HasAt (step.fragment.start + width skipped) word := by
  obtain ⟨before, after, whole, start⟩ := (standsIn_fragments isPart.member).place
  have overlays := isPart.overlays
  have apart : step.line.stripped.code = (before ++ skipped) ++ word ++ (rest ++ after) := by
    simp [whole, split]
  rw [apart] at overlays
  obtain ⟨front, back, isRaw, same⟩ := overlays.word nonempty visible
  refine ⟨front, back, isRaw, ?_⟩
  rw [same, width_append, start]
  omega

theorem hasAt_start : ∃ c, isBlank c = false ∧ step.line.HasAt step.fragment.start [c] := by
  obtain ⟨-, -, nonempty, visible⟩ := standsIn_fragments isPart.member
  obtain ⟨c, rest, split⟩ := List.exists_cons_of_ne_nil nonempty
  have notBlank : isBlank c = false := visible c (by rw [split]; rfl)
  refine ⟨c, notBlank, ?_⟩
  refine isPart.hasAt [] rest (by simp [split]) (by simp) ?_
  rintro d member rfl
  rw [← List.mem_singleton.mp member] at notBlank
  cases notBlank

theorem hasAt_word {word : List Char} (begins : word <+: step.text) (nonempty : word ≠ [])
    (visible : ∀ c ∈ word, c ≠ ' ') :
    step.line.HasAt (step.fragment.stop - width step.text) word := by
  obtain ⟨rest, isText⟩ := begins
  obtain ⟨skipped, split⟩ := (withoutPragmas_suffix step.fragment.text).1
  have stop := (standsIn_fragments isPart.member).stop
  have offset : step.fragment.stop - width step.text = step.fragment.start + width skipped := by
    rw [stop, ← split, width_append]
    have same : width (withoutPragmas step.fragment.text) = width step.text := rfl
    omega
  rw [offset]
  refine isPart.hasAt skipped rest ?_ nonempty visible
  rw [List.append_assoc, isText]
  exact split.symm

theorem hasAt_text (nonempty : step.text ≠ []) :
    ∃ c, isBlank c = false ∧ step.line.HasAt (step.fragment.stop - width step.text) [c] := by
  have head := (standsIn_fragments isPart.member).visible
  obtain ⟨c, rest, split⟩ := List.exists_cons_of_ne_nil nonempty
  have notBlank : isBlank c = false :=
    (withoutPragmas_suffix step.fragment.text).2 head c (by rw [← Step.text, split]; rfl)
  refine ⟨c, notBlank, isPart.hasAt_word ⟨rest, by simp [split]⟩ (by simp) ?_⟩
  rintro d member rfl
  rw [← List.mem_singleton.mp member] at notBlank
  cases notBlank

end Step.IsPart

theorem mem_lineSteps {line : SourceLine} {parts : List Fragment} {step : Step}
    (member : step ∈ lineSteps line parts) : step.line = line ∧ step.fragment ∈ parts := by
  induction parts with
  | nil => cases member
  | cons part parts ih =>
    rcases List.mem_cons.mp member with rfl | later
    · exact ⟨rfl, List.mem_cons_self⟩
    · exact ⟨(ih later).1, List.mem_cons_of_mem part (ih later).2⟩

theorem mem_stepsFrom {count : Nat} {carried : Option OpenComment} {raws : List (List Char)}
    {step : Step} (member : step ∈ stepsFrom count carried raws) :
    step.IsPart ∧ ∃ index, raws[index]? = some step.line.raw ∧
      step.line.number = count + index + 1 := by
  induction raws generalizing count carried with
  | nil => cases member
  | cons raw raws ih =>
    simp only [stepsFrom, List.mem_append] at member
    rcases member with first | later
    · split at first
      · cases first
      · obtain ⟨isLine, isFragment⟩ := mem_lineSteps first
        refine ⟨⟨?_, ?_⟩, 0, ?_, ?_⟩
        · rw [isLine]
          exact Overlays.strip carried raw (count + 1)
        · rw [isLine]
          exact isFragment
        · simp [isLine]
        · simp [isLine]
    · obtain ⟨isPart, index, isRaw, number⟩ := ih later
      refine ⟨isPart, index + 1, by simpa using isRaw, ?_⟩
      omega

end StructuredText
