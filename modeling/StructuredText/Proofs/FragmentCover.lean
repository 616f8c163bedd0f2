import StructuredText.Proofs.Alignment

set_option autoImplicit false

namespace StructuredText

inductive Scan where
  | outside
  | inside (close : Char)
  -- The next character is taken by a dollar sign.
  | escaped (close : Char)
  deriving DecidableEq

namespace Scan

def next : Scan → Char → Scan
  | outside, c =>
    if c = '\x7b' then inside '\x7d'
    else if c = '\x27' ∨ c = '\x22' then inside c
    else outside
  | inside close, c =>
    if c = '$' then escaped close
    else if c = close then outside
    else inside close
  | escaped close, _ => inside close

def after (scan : Scan) (s : List Char) : Scan :=
  s.foldl next scan

theorem after_cons (scan : Scan) (c : Char) (s : List Char) :
    scan.after (c :: s) = (scan.next c).after s := rfl

theorem after_append (scan : Scan) (s t : List Char) :
    scan.after (s ++ t) = (scan.after s).after t :=
  List.foldl_append

theorem next_outside (c : Char) :
    outside.next c = (quoteClose? c).elim outside inside := by
  simp only [next, quoteClose?, stringClose?]
  split
  · rfl
  · split <;> rfl

theorem after_unquoted {s : List Char} (unquoted : ∀ c ∈ s, quoteClose? c = none) :
    outside.after s = outside := by
  induction s with
  | nil => rfl
  | cons c s ih =>
    rw [after_cons, next_outside, unquoted c List.mem_cons_self]
    exact ih fun d member => unquoted d (List.mem_cons_of_mem c member)

theorem after_splitQuoted {close : Char} (noEscape : close ≠ '$') (s : List Char) :
    (inside close).after (splitQuoted close s).1 = outside ∨ (splitQuoted close s).2 = [] := by
  fun_induction splitQuoted close s with
  | case1 => exact .inr rfl
  | case2 c rest quoted after split ih =>
    rw [split] at ih
    simpa [after_cons, next] using ih
  | case3 rest notEscaped =>
    left
    simp [next, noEscape, after]
  | case4 c rest notEscaped other quoted after split ih =>
    rw [split] at ih
    by_cases escape : c = '$'
    · cases rest with
      | nil => exact .inr (congrArg Prod.snd split).symm
      | cons d rest => exact absurd rfl (notEscaped d rest escape)
    · simpa [after_cons, next, other, escape] using ih

theorem after_next {c : Char} {s : List Char} (followed : (Lexeme.next c s).2 ≠ []) :
    outside.after (Lexeme.next c s).1.text = outside := by
  rcases Lexeme.next_cases c s with
    ⟨close, opens, reads⟩ | ⟨isName, reads⟩ | ⟨rfl, reads⟩ | ⟨opens, -, -, reads⟩ <;>
    rw [reads] at followed ⊢
  · rw [Lexeme.text, after_cons, next_outside, opens]
    exact (after_splitQuoted (quoteClose?_ne_escape opens) s).resolve_right followed
  · have letters : ∀ d ∈ c :: s.takeWhile isNameChar, isNameChar d = true :=
      List.forall_mem_cons.mpr ⟨isName, List.all_eq_true.mp List.all_takeWhile⟩
    exact after_unquoted fun d member => quoteClose?_of_name (letters d member)
  · rfl
  · exact after_unquoted (by simpa [Lexeme.text] using opens)

theorem after_lexemes {s : List Char} {before after : List Lexeme} {l : Lexeme}
    (split : lexemes s = before ++ l :: after) :
    outside.after (before.flatMap Lexeme.text) = outside := by
  induction before generalizing s with
  | nil => rfl
  | cons m before ih =>
    cases s with
    | nil => simp [lexemes] at split
    | cons c s =>
      rw [lexemes, List.cons_append] at split
      obtain ⟨rfl, later⟩ := List.cons.inj split
      have followed : (Lexeme.next c s).2 ≠ [] := by
        intro nothing
        simp [nothing, lexemes] at later
      rw [List.flatMap_cons, after_append, after_next followed, ih later]

end Scan

section Trim

theorem split_trim {piece before after : List Char} {c : Char}
    (whole : piece = before ++ c :: after) (visible : isBlank c = false) :
    ∃ front back, trim piece = front ++ c :: back ∧
      before = piece.takeWhile isBlank ++ front := by
  have noBlank {blanks : List Char} (areBlank : ∀ d ∈ blanks, isBlank d = true) : c ∉ blanks := by
    intro member
    rw [areBlank c member] at visible
    cases visible
  have leading : ∀ d ∈ piece.takeWhile isBlank, isBlank d = true :=
    List.all_eq_true.mp List.all_takeWhile
  obtain ⟨tail, split, trailing⟩ := trimEnd_append (trimStart piece)
  have parts : piece.takeWhile isBlank ++ trimStart piece = before ++ c :: after := by
    rw [← whole]
    exact List.takeWhile_append_dropWhile
  obtain ⟨front, rfl, begins⟩ := cut_behind (noBlank leading) parts
  rw [split] at begins
  refine ⟨front, ?_⟩
  rcases List.append_eq_append_iff.mp begins with ⟨mid, -, rest⟩ | ⟨mid, split, rest⟩
  · exact absurd (by simp [rest]) (noBlank trailing)
  · cases mid with
    | nil => exact absurd (by simp [show tail = c :: after from rest.symm]) (noBlank trailing)
    | cons d mid =>
      obtain ⟨rfl, -⟩ := List.cons.inj rest
      exact ⟨mid, split, rfl⟩

end Trim

theorem covered_by_fragmentsFrom (offset : Nat) {texts : List (List Char)}
    {before after : List Char} {c : Char} (whole : texts.flatten = before ++ c :: after)
    (visible : isBlank c = false) :
    (∃ fragment ∈ fragmentsFrom offset texts, fragment.start ≤ offset + width before ∧
        offset + width before + c.utf8Size ≤ fragment.stop) ∨
      c = ';' ∧ ∃ earlier piece later, texts = earlier ++ piece :: later ∧ trim piece = [';'] ∧
        before = earlier.flatten ++ piece.takeWhile isBlank := by
  induction texts generalizing offset before with
  | nil => simp at whole
  | cons text texts ih =>
    -- The character stands in a later text, or else in the first.
    have behind (front : List Char) (split : before = text ++ front)
        (rest : texts.flatten = front ++ c :: after) :
        (∃ fragment ∈ fragmentsFrom offset (text :: texts),
            fragment.start ≤ offset + width before ∧
              offset + width before + c.utf8Size ≤ fragment.stop) ∨
          c = ';' ∧ ∃ earlier piece later, text :: texts = earlier ++ piece :: later ∧
            trim piece = [';'] ∧ before = earlier.flatten ++ piece.takeWhile isBlank := by
      subst split
      rcases ih (offset + width text) rest with
        ⟨fragment, member, starts, stops⟩ | ⟨semicolon, earlier, piece, later, rfl, lone, rfl⟩
      · left
        refine ⟨fragment, ?_, by simpa [Nat.add_assoc] using starts,
          by simpa [Nat.add_assoc] using stops⟩
        simp only [fragmentsFrom]
        split
        · exact member
        · exact List.mem_cons_of_mem _ member
      · exact .inr ⟨semicolon, text :: earlier, piece, later, rfl, lone, by simp⟩
    rw [List.flatten_cons] at whole
    rcases List.append_eq_append_iff.mp whole with ⟨front, split, rest⟩ | ⟨mid, split, rest⟩
    · exact behind front split rest
    · cases mid with
      | nil => exact behind [] (by simpa using split.symm) (by simpa using rest.symm)
      | cons d mid =>
        obtain ⟨rfl, -⟩ := List.cons.inj rest
        obtain ⟨front, back, trimmed, isBefore⟩ := split_trim split visible
        by_cases lone : trim text = [';']
        · right
          rw [lone] at trimmed
          cases front with
          | nil =>
            obtain ⟨rfl, -⟩ := List.cons.inj trimmed
            exact ⟨rfl, [], text, texts, rfl, lone, by simpa using isBefore⟩
          | cons e front => simp at trimmed
        · left
          have nonempty : trim text ≠ [] := by simp [trimmed]
          refine ⟨⟨trim text, offset + width (text.takeWhile isBlank),
            offset + width (text.takeWhile isBlank) + width (trim text)⟩, ?_, ?_, ?_⟩
          · simp [fragmentsFrom, nonempty, lone]
          · simp only [isBefore, width_append]
            omega
          · simp only [isBefore, trimmed, width_append, width_cons]
            omega

theorem pairwise_fragmentsFrom (offset : Nat) (texts : List (List Char)) :
    (fragmentsFrom offset texts).Pairwise (fun one other => one.stop ≤ other.start) := by
  induction texts generalizing offset with
  | nil => exact .nil
  | cons text texts ih =>
    simp only [fragmentsFrom]
    split
    · exact ih _
    · refine .cons (fun other member => ?_) (ih _)
      obtain ⟨before, after, -, starts⟩ := (standsIn_fragmentsFrom member).place
      obtain ⟨tail, split, -⟩ := trimEnd_append (trimStart text)
      have parts : text.takeWhile isBlank ++ (trim text ++ tail) = text := by
        rw [trim, ← split]
        exact List.takeWhile_append_dropWhile
      have widths := congrArg width parts
      simp only [width_append] at widths
      simp only [starts]
      omega

theorem outside_of_lone {code : List Char} {earlier later : List (List Char)} {piece : List Char}
    (split : pieceTexts code = earlier ++ piece :: later) (lone : trim piece = [';']) :
    Scan.outside.after (earlier.flatten ++ piece.takeWhile isBlank) = .outside := by
  obtain ⟨before, others, isPieces, rfl, rest⟩ := List.map_eq_append_iff.mp split
  obtain ⟨ls, after, rfl, rfl, -⟩ := List.map_eq_cons_iff.mp rest
  have flat : lexemes code = before.flatten ++ (ls ++ after.flatten) := by
    have flat := pieces_flatten (lexemes code)
    rw [← List.flatten_cons, isPieces] at flat
    simpa using flat.symm
  let lead := (ls.flatMap Lexeme.text).takeWhile isBlank
  have leading : ∀ c ∈ lead, isBlank c = true := List.all_eq_true.mp List.all_takeWhile
  obtain ⟨tail, ends, -⟩ := trimEnd_append (trimStart (ls.flatMap Lexeme.text))
  rw [← trim, lone] at ends
  have parts : lead ++ ';' :: tail = ls.flatMap Lexeme.text := by
    rw [← List.singleton_append, ← ends]
    exact List.takeWhile_append_dropWhile
  have inside : ls <:+: lexemes code := ⟨before.flatten, after.flatten, by simp [flat]⟩
  have semicolon : lexemes (';' :: tail) = .semicolon :: lexemes tail := by
    rw [lexemes]
    rfl
  have begins : ls = lead.map Lexeme.other ++ .semicolon :: lexemes tail := by
    rw [← semicolon, ← lexemes_blank_append leading, parts, lexemes_part inside]
  have whole : lexemes code = (before.flatten ++ lead.map Lexeme.other) ++
      .semicolon :: (lexemes tail ++ after.flatten) := by
    rw [flat, begins]
    simp
  have isText : (before.flatten ++ lead.map Lexeme.other).flatMap Lexeme.text =
      (before.map fun piece => piece.flatMap Lexeme.text).flatten ++ lead := by
    have kept : (lead.map Lexeme.other).flatMap Lexeme.text = lead := by
      simp [List.flatMap_map, Lexeme.text]
    rw [List.flatMap_append, kept, ← List.flatMap_id, List.flatMap_assoc, List.flatMap_def]
    rfl
  rw [← isText]
  exact Scan.after_lexemes whole

structure CoveredBy (code : List Char) (parts : List Fragment) : Prop where
  ordered : parts.Pairwise fun one other => one.stop ≤ other.start
  bounds : ∀ part ∈ parts, part.start < part.stop ∧ part.stop ≤ width code
  text : ∀ part ∈ parts, ∃ before after, code = before ++ part.text ++ after ∧
    part.start = width before ∧ part.stop = width before + width part.text
  trimmed : ∀ part ∈ parts, (∀ c ∈ part.text.head?, isBlank c = false) ∧
    (∀ c ∈ part.text.getLast?, isBlank c = false) ∧ part.text ≠ [';']
  between : ∀ before c after, code = before ++ c :: after →
    ∀ offset, width before ≤ offset → offset < width before + c.utf8Size →
      (∀ part ∈ parts, ¬(part.start ≤ offset ∧ offset < part.stop)) →
        isBlank c = true ∨ c = ';' ∧ Scan.outside.after before = .outside

theorem covered_by_fragments (code : List Char) : CoveredBy code (fragments code) where
  ordered := pairwise_fragmentsFrom 0 (pieceTexts code)
  bounds part member := by
    obtain ⟨⟨before, after, whole, starts⟩, stop, nonempty, -⟩ := standsIn_fragments member
    have positive := width_pos nonempty
    have widths := congrArg width whole
    simp only [width_append] at widths
    omega
  text part member := by
    obtain ⟨⟨before, after, whole, starts⟩, stop, -, -⟩ := standsIn_fragments member
    exact ⟨before, after, whole, by omega, by omega⟩
  trimmed part member := by
    have among : part.text ∈ ((pieceTexts code).map trim).filter isFragment := by
      rw [← map_text_fragments]
      exact List.mem_map_of_mem member
    obtain ⟨isTrimmed, isFragment⟩ := List.mem_filter.mp among
    obtain ⟨text, -, trimmed⟩ := List.mem_map.mp isTrimmed
    rw [← trimmed] at isFragment ⊢
    refine ⟨head_trim text, last_trim text, ?_⟩
    rintro lone
    rw [lone] at isFragment
    cases isFragment
  between before c after whole offset above below outside := by
    by_cases blank : isBlank c = true
    · exact .inl blank
    · right
      rw [← flatten_pieceTexts code] at whole
      rcases covered_by_fragmentsFrom 0 whole (Bool.not_eq_true _ ▸ blank) with
        ⟨part, member, starts, stops⟩ | ⟨semicolon, earlier, piece, later, split, lone, rfl⟩
      · exact absurd ⟨by omega, by omega⟩ (outside part member)
      · exact ⟨semicolon, outside_of_lone split lone⟩

end StructuredText
