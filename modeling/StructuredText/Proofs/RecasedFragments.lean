import StructuredText.Proofs.Alignment
import StructuredText.Proofs.Reading
import StructuredText.Proofs.RecasedLines

set_option autoImplicit false

namespace StructuredText

theorem forall₂_span {α β : Type} {R : α → β → Prop} {p : α → Bool} {q : β → Bool}
    (same : ∀ a b, R a b → p a = q b) {as : List α} {bs : List β} (alike : List.Forall₂ R as bs) :
    List.Forall₂ R (as.takeWhile p) (bs.takeWhile q) ∧
      List.Forall₂ R (as.dropWhile p) (bs.dropWhile q) := by
  induction alike with
  | nil => exact ⟨.nil, .nil⟩
  | @cons a b as bs first rest ih =>
    rw [List.takeWhile_cons, List.dropWhile_cons, List.takeWhile_cons, List.dropWhile_cons,
      same a b first]
    split
    · exact ⟨.cons first ih.1, ih.2⟩
    · exact ⟨.nil, .cons first rest⟩

namespace Lexeme

def capitalized : Lexeme → Lexeme
  | quoted text => quoted (capitals text)
  | word text => word (capitals text)
  | semicolon => semicolon
  | other c => other c.toUpper

theorem capitals_text (l : Lexeme) : capitals l.text = l.capitalized.text := by
  cases l <;> rfl

theorem isSpace_capitalized (l : Lexeme) : l.capitalized.isSpace = l.isSpace := by
  cases l <;> simp [capitalized, isSpace]

theorem next_capitals (c : Char) (s : List Char) :
    next c.toUpper (capitals s) = ((next c s).1.capitalized, capitals (next c s).2) := by
  cases opens : quoteClose? c with
  | some close =>
    simp only [next, quoteClose?_toUpper, opens,
      splitQuoted_capitals (isAlpha_of_quoteClose? opens)]
    rfl
  | none =>
    have semicolon : c.toUpper = ';' ↔ c = ';' := toUpper_eq_iff (by decide)
    simp only [next, quoteClose?_toUpper, opens, semicolon, isNameChar_toUpper,
      capitals_takeWhile isNameChar_toUpper, capitals_dropWhile isNameChar_toUpper]
    split
    · rfl
    · split <;> rfl

structure Respells (l m : Lexeme) : Prop where
  letters : l.capitalized = m.capitalized
  text : Recased l.text m.text

namespace Respells

variable {l m : Lexeme}

theorem isSpace (respells : l.Respells m) : l.isSpace = m.isSpace := by
  rw [← isSpace_capitalized, respells.letters, isSpace_capitalized]

theorem word_elim {w : List Char} (respells : (word w).Respells m) :
    ∃ v, m = word v ∧ Recased w v := by
  obtain ⟨letters, text⟩ := respells
  cases m with
  | word v => exact ⟨v, rfl, text⟩
  | quoted _ | semicolon | other _ => cases letters

theorem semicolon_iff (respells : l.Respells m) : l = .semicolon ↔ m = .semicolon := by
  obtain ⟨letters, -⟩ := respells
  cases l <;> cases m <;> simp_all [capitalized]

theorem eq_word_iff {keyword : List Char} (respells : l.Respells m) (foreign : Foreign keyword) :
    l = .word keyword ↔ m = .word keyword := by
  obtain ⟨letters, text⟩ := respells
  cases l with
  | word w =>
    cases m with
    | word v =>
      have same : keyword = w ↔ keyword = v := text.eq_iff foreign
      simpa only [word.injEq, eq_comm] using same
    | quoted _ | semicolon | other _ => cases letters
  | quoted _ | semicolon | other _ =>
    cases m with
    | word v => cases letters
    | quoted _ | semicolon | other _ => simp

end Respells

end Lexeme

section Cut

theorem lexemes_capitals (s : List Char) :
    lexemes (capitals s) = (lexemes s).map Lexeme.capitalized := by
  fun_induction lexemes s with
  | case1 => simp [lexemes]
  | case2 c s ih => rw [capitals_cons, lexemes, Lexeme.next_capitals, ih, List.map_cons]

theorem respells_of_flatMap {ls ms : List Lexeme}
    (same : ls.map Lexeme.capitalized = ms.map Lexeme.capitalized)
    (alike : Recased (ls.flatMap Lexeme.text) (ms.flatMap Lexeme.text)) :
    List.Forall₂ Lexeme.Respells ls ms := by
  induction ls generalizing ms with
  | nil =>
    obtain rfl : ms = [] := List.map_eq_nil_iff.mp same.symm
    exact .nil
  | cons l ls ih =>
    obtain ⟨m, ms, rfl, letters, rest⟩ := List.map_eq_cons_iff.mp same.symm
    have sameLength : l.text.length = m.text.length := by
      rw [← length_capitals, Lexeme.capitals_text, ← letters, ← Lexeme.capitals_text,
        length_capitals]
    obtain ⟨text, others⟩ := alike.parts sameLength
    exact .cons ⟨letters.symm, text⟩ (ih rest.symm others)

theorem Recased.lexemes {s t : List Char} (alike : Recased s t) :
    List.Forall₂ Lexeme.Respells (lexemes s) (lexemes t) := by
  apply respells_of_flatMap
  · rw [← lexemes_capitals, alike.letters, lexemes_capitals]
  · simpa only [flatMap_text_lexemes] using alike

variable {ls ms : List Lexeme}

theorem takeQualifiers_respell {spaces others : List Lexeme}
    (before : List.Forall₂ Lexeme.Respells spaces others)
    (same : List.Forall₂ Lexeme.Respells ls ms) :
    List.Forall₂ Lexeme.Respells (takeQualifiers spaces ls).1 (takeQualifiers others ms).1 ∧
      List.Forall₂ Lexeme.Respells (takeQualifiers spaces ls).2 (takeQualifiers others ms).2 := by
  induction same generalizing spaces others with
  | nil => exact ⟨.nil, before⟩
  | @cons l m ls ms first rest ih =>
    have qualifier : (sectionQualifiers.any fun keyword => decide (l = .word keyword.toList)) =
        sectionQualifiers.any fun keyword => decide (m = .word keyword.toList) := by
      rw [Bool.eq_iff_iff, List.any_eq_true, List.any_eq_true]
      refine exists_congr fun keyword => and_congr_right fun member => ?_
      simpa only [decide_eq_true_eq] using first.eq_word_iff (foreign_qualifier keyword member)
    rw [takeQualifiers, takeQualifiers, ← first.isSpace, ← qualifier]
    split
    · exact ih (List.rel_append before (.cons first .nil))
    · split
      · obtain ⟨taken, left⟩ := ih .nil
        exact ⟨List.rel_append before (.cons first taken), left⟩
      · exact ⟨.nil, List.rel_append before (.cons first rest)⟩

theorem takeSemicolon_respell (same : List.Forall₂ Lexeme.Respells ls ms) :
    List.Forall₂ Lexeme.Respells (takeSemicolon ls).1 (takeSemicolon ms).1 ∧
      List.Forall₂ Lexeme.Respells (takeSemicolon ls).2 (takeSemicolon ms).2 := by
  obtain ⟨spaces, behind⟩ := forall₂_span (fun _ _ respells => respells.isSpace) same
  simp only [takeSemicolon]
  generalize ls.dropWhile Lexeme.isSpace = left at behind ⊢
  generalize ms.dropWhile Lexeme.isSpace = right at behind ⊢
  cases behind with
  | nil => exact ⟨.nil, same⟩
  | @cons l m left right first rest =>
    by_cases ends : l = .semicolon
    · obtain rfl := ends
      obtain rfl := first.semicolon_iff.mp rfl
      exact ⟨List.rel_append spaces (.cons first .nil), rest⟩
    · have alsoNot : m ≠ .semicolon := first.semicolon_iff.not.mp ends
      split
      · rename_i isSemicolon
        exact absurd (List.cons.inj isSemicolon).1 ends
      · split
        · rename_i isSemicolon
          exact absurd (List.cons.inj isSemicolon).1 alsoNot
        · exact ⟨.nil, same⟩

theorem takeAttached_respell (cut : Cut) (same : List.Forall₂ Lexeme.Respells ls ms) :
    List.Forall₂ Lexeme.Respells (takeAttached cut ls).1 (takeAttached cut ms).1 ∧
      List.Forall₂ Lexeme.Respells (takeAttached cut ls).2 (takeAttached cut ms).2 := by
  cases cut with
  | aroundSection => exact takeQualifiers_respell .nil same
  | aroundClosing => exact takeSemicolon_respell same
  | before | after | around => exact ⟨.nil, same⟩

theorem pieces_respell (same : List.Forall₂ Lexeme.Respells ls ms) :
    List.Forall₂ Lexeme.Respells (pieces ls).1 (pieces ms).1 ∧
      List.Forall₂ (List.Forall₂ Lexeme.Respells) (pieces ls).2 (pieces ms).2 := by
  fun_induction pieces ls generalizing ms with
  | case1 =>
    cases same
    simp only [pieces]
    exact ⟨.nil, .nil⟩
  | case2 ls ih =>
    cases same with
    | @cons _ m _ ms first rest =>
      obtain rfl := first.semicolon_iff.mp rfl
      obtain ⟨here, later⟩ := ih rest
      simp only [pieces]
      exact ⟨.cons first .nil, .cons here later⟩
  | case3 w ls uncut ih =>
    cases same with
    | @cons _ m _ ms first rest =>
      obtain ⟨v, rfl, alike⟩ := first.word_elim
      obtain ⟨here, later⟩ := ih rest
      rw [alike.ofWord?] at uncut
      simp only [pieces, uncut]
      exact ⟨.cons first here, later⟩
  | case4 w ls cut ih =>
    cases same with
    | @cons _ m _ ms first rest =>
      obtain ⟨v, rfl, alike⟩ := first.word_elim
      obtain ⟨here, later⟩ := ih rest
      rw [alike.ofWord?] at cut
      simp only [pieces, cut]
      exact ⟨.nil, .cons (.cons first here) later⟩
  | case5 w ls cut ih =>
    cases same with
    | @cons _ m _ ms first rest =>
      obtain ⟨v, rfl, alike⟩ := first.word_elim
      obtain ⟨here, later⟩ := ih rest
      rw [alike.ofWord?] at cut
      simp only [pieces, cut]
      exact ⟨.cons first .nil, .cons here later⟩
  | case6 w ls cut notBefore notAfter isCut attached =>
    rename_i ih
    cases same with
    | @cons _ m _ ms first rest =>
      obtain ⟨v, rfl, alike⟩ := first.word_elim
      obtain ⟨taken, left⟩ := takeAttached_respell cut rest
      obtain ⟨here, later⟩ := ih left
      rw [alike.ofWord?] at isCut
      rw [pieces_around isCut notBefore notAfter]
      exact ⟨.nil, .cons (.cons first taken) (.cons here later)⟩
  | case7 l ls notSemicolon notWord ih =>
    cases same with
    | @cons _ m _ ms first rest =>
      obtain ⟨here, later⟩ := ih rest
      have pieces_other : pieces (m :: ms) = (m :: (pieces ms).1, (pieces ms).2) := by
        rw [pieces]
        · exact fun isSemicolon => notSemicolon (first.semicolon_iff.mpr isSemicolon)
        · rintro v rfl
          cases l with
          | word w => exact notWord w rfl
          | quoted _ | semicolon | other _ => cases first.letters
      rw [pieces_other]
      exact ⟨.cons first here, later⟩

end Cut

section Fragments

theorem length_flatMap_text {ls ms : List Lexeme} (same : List.Forall₂ Lexeme.Respells ls ms) :
    (ls.flatMap Lexeme.text).length = (ms.flatMap Lexeme.text).length := by
  induction same with
  | nil => rfl
  | cons first _ ih => simp only [List.flatMap_cons, List.length_append, first.text.length_eq, ih]

variable {s t : List Char}

theorem Recased.pieceTexts (alike : Recased s t) :
    List.Forall₂ Recased (pieceTexts s) (pieceTexts t) := by
  obtain ⟨first, rest⟩ := pieces_respell alike.lexemes
  apply Recased.flatten_parts
  · simpa only [flatten_pieceTexts] using alike
  · have lengths {pieces others : List (List Lexeme)}
        (same : List.Forall₂ (List.Forall₂ Lexeme.Respells) pieces others) :
        (pieces.map fun piece => (piece.flatMap Lexeme.text).length) =
          others.map fun piece => (piece.flatMap Lexeme.text).length := by
      induction same with
      | nil => rfl
      | cons first _ ih => rw [List.map_cons, List.map_cons, length_flatMap_text first, ih]
    simp only [StructuredText.pieceTexts, List.map_map, Function.comp_def]
    exact lengths (.cons first rest)

structure Fragment.Respells (one other : Fragment) : Prop where
  text : Recased one.text other.text
  start : one.start = other.start
  stop : one.stop = other.stop

theorem fragmentsFrom_respell (offset : Nat) {texts others : List (List Char)}
    (same : List.Forall₂ Recased texts others) :
    List.Forall₂ Fragment.Respells (fragmentsFrom offset texts) (fragmentsFrom offset others) := by
  induction same generalizing offset with
  | nil => exact .nil
  | @cons text other texts others first _ ih =>
    have blanks : width (text.takeWhile isBlank) = width (other.takeWhile isBlank) :=
      (first.takeWhile isBlank_toUpper).width_eq
    have skipped : trim text = [] ∨ trim text = [';'] ↔ trim other = [] ∨ trim other = [';'] :=
      or_congr first.trim.nil_iff (first.trim.eq_sign_iff (by decide))
    simp only [fragmentsFrom, skipped, blanks, first.width_eq, first.trim.width_eq]
    split
    · exact ih _
    · exact .cons ⟨first.trim, rfl, rfl⟩ (ih _)

theorem Recased.fragments (alike : Recased s t) :
    List.Forall₂ Fragment.Respells (fragments s) (fragments t) :=
  fragmentsFrom_respell 0 alike.pieceTexts

theorem Recased.withoutPragmas (alike : Recased s t) :
    Recased (withoutPragmas s) (withoutPragmas t) := by
  have opening (c : Char) : c.toUpper = '\x7b' ↔ c = '\x7b' := toUpper_eq_iff (by decide)
  fun_induction StructuredText.withoutPragmas s generalizing t with
  | case1 rest before after split ih =>
    obtain ⟨d, other, rfl, isBrace, behind⟩ := alike.cons_elim
    obtain rfl : d = '\x7b' := (opening d).mp isBrace.symm
    obtain ⟨⟨otherBefore, otherAfter⟩, otherSplit, -, rest⟩ :=
      exists_of_rel (split ▸ behind.splitAtChar (by decide))
    rw [StructuredText.withoutPragmas, otherSplit]
    exact ih rest.trimStart
  | case2 rest unclosed =>
    obtain ⟨d, other, rfl, isBrace, behind⟩ := alike.cons_elim
    obtain rfl : d = '\x7b' := (opening d).mp isBrace.symm
    have alsoUnclosed := eq_none_of_rel (unclosed ▸ behind.splitAtChar (by decide))
    rw [StructuredText.withoutPragmas, alsoUnclosed]
    exact .refl []
  | case3 s noPragma =>
    rw [StructuredText.withoutPragmas]
    · exact alike
    · rintro other rfl
      obtain ⟨d, rest, rfl, isBrace, -⟩ := alike.symm.cons_elim
      exact noPragma rest (by rw [(opening d).mp isBrace.symm])

end Fragments

section Comments

def LineComment.capitalized (comment : LineComment) : LineComment :=
  { comment with text := inCapitals comment.text }

theorem commentsFrom_capitalized (offset : Nat) (parts : List Segment) :
    commentsFrom offset (parts.map Segment.capitalized) =
      (commentsFrom offset parts).map LineComment.capitalized := by
  induction parts generalizing offset with
  | nil => rfl
  | cons part parts ih =>
    cases part with
    | code text => simp only [List.map_cons, Segment.capitalized, commentsFrom, width_capitals, ih]
    | comment text note stillOpen =>
      simp only [List.map_cons, Segment.capitalized, commentsFrom, width_capitals, ih,
        trim_capitals, LineComment.capitalized, inCapitals_ofList]

theorem strip_comments {line other : List Char} (same : capitals line = capitals other)
    (carried : Option OpenComment) (number : Nat) :
    (strip carried line number).1.comments.map LineComment.capitalized =
      (strip carried other number).1.comments.map LineComment.capitalized := by
  simp only [strip_eq_ofSegments, StrippedLine.ofSegments, ← commentsFrom_capitalized,
    ← lineSegments_capitals, same]

theorem commentBetween_capitalized (line : StrippedLine) (start : Nat) (stop : Option Nat) :
    StrippedLine.commentBetween
        { line with comments := line.comments.map .capitalized } start stop =
      (line.commentBetween start stop).map inCapitals := by
  have visible (comment : LineComment) :
      (comment.capitalized.text != "") = (comment.text != "") := by
    rw [Bool.eq_iff_iff, bne_iff_ne, bne_iff_ne]
    exact (inCapitals_eq_empty comment.text).not
  have place (comment : LineComment) : comment.capitalized.start = comment.start := rfl
  simp only [StrippedLine.commentBetween, List.filter_map, Function.comp_def, visible, place,
    List.isEmpty_map]
  split
  · rfl
  · have space : inCapitals " " = " " := by decide
    rw [Option.map_some, inCapitals_intercalate, space, List.map_map, List.map_map]
    rfl

end Comments

structure SourceLine.Respells (one other : SourceLine) : Prop where
  raw : Recased one.raw other.raw
  code : Recased one.stripped.code other.stripped.code
  comments : one.stripped.comments.map LineComment.capitalized =
    other.stripped.comments.map LineComment.capitalized
  number : one.number = other.number

structure Step.Respells (one other : Step) : Prop where
  text : Recased one.text other.text
  pos : one.pos = other.pos
  start : one.start = other.start
  number : one.line.number = other.line.number
  comment : one.comment.map inCapitals = other.comment.map inCapitals
  copy : capitals (trim one.line.raw) = capitals (trim other.line.raw)

namespace SourceLine.Respells

variable {one other : SourceLine} (respells : one.Respells other)

include respells

theorem position (offset : Nat) : one.position offset = other.position offset := by
  rw [SourceLine.position, SourceLine.position, respells.number, ← charsBefore?_capitals one.raw,
    respells.raw.letters, charsBefore?_capitals]

theorem comment (start : Nat) (stop : Option Nat) :
    (one.stripped.commentBetween start stop).map inCapitals =
      (other.stripped.commentBetween start stop).map inCapitals := by
  rw [← commentBetween_capitalized, ← commentBetween_capitalized, respells.comments]
  rfl

theorem lineSteps {parts others : List Fragment}
    (same : List.Forall₂ Fragment.Respells parts others) :
    List.Forall₂ Step.Respells (lineSteps one parts) (lineSteps other others) := by
  induction same with
  | nil => exact .nil
  | @cons part otherPart parts others first rest ih =>
    have next : parts.head?.map Fragment.start = others.head?.map Fragment.start := by
      cases rest with
      | nil => rfl
      | cons second _ => exact congrArg some second.start
    have text := first.text.withoutPragmas
    refine .cons ⟨text, ?_, ?_, respells.number, ?_, respells.raw.trim.letters⟩ ih
    · simp only [Step.pos, Step.text, respells.position, first.stop, text.width_eq]
    · simp only [Step.start, respells.position, first.start]
    · simp only [Step.comment, respells.comment, first.stop, next]

theorem steps :
    List.Forall₂ Step.Respells (if one.stripped.isEmpty then [] else one.steps)
      (if other.stripped.isEmpty then [] else other.steps) := by
  have sameCode : one.stripped.isEmpty = other.stripped.isEmpty := by
    rw [StrippedLine.isEmpty, StrippedLine.isEmpty, Bool.eq_iff_iff, List.isEmpty_iff,
      List.isEmpty_iff]
    exact respells.code.trim.nil_iff
  rw [sameCode]
  split
  · exact .nil
  · exact respells.lineSteps respells.code.fragments

end SourceLine.Respells

theorem stepsFrom_respell (count : Nat) (carried : Option OpenComment)
    {raws others : List (List Char)} (same : List.Forall₂ Recased raws others) :
    List.Forall₂ Step.Respells (stepsFrom count carried raws) (stepsFrom count carried others) := by
  induction same generalizing count carried with
  | nil => exact .nil
  | @cons raw other raws others first _ ih =>
    have line : SourceLine.Respells ⟨raw, (strip carried raw (count + 1)).1, count + 1⟩
        ⟨other, (strip carried other (count + 1)).1, count + 1⟩ :=
      ⟨first, first.code carried _, strip_comments first.letters carried _, rfl⟩
    rw [stepsFrom, stepsFrom, strip_of_letters first.letters]
    exact List.rel_append line.steps (ih _ _)

theorem stripLines_respell (count : Nat) (carried : Option OpenComment)
    {raws others : List (List Char)} (same : List.Forall₂ Recased raws others) :
    (stripLines count carried raws).2 = (stripLines count carried others).2 := by
  induction same generalizing count carried with
  | nil => rfl
  | cons first _ ih =>
    simp only [stripLines, strip_of_letters first.letters]
    exact ih _ _

end StructuredText
