import StructuredText.Proofs.NoBoundary
import StructuredText.Proofs.PlainLine

set_option autoImplicit false

namespace StructuredText

namespace Lexeme

theorem next_of_quote {c close : Char} (opens : quoteClose? c = some close) (s : List Char) :
    next c s = (quoted (c :: (splitQuoted close s).1), (splitQuoted close s).2) := by
  simp [next, opens]

theorem next_cases (c : Char) (s : List Char) :
    (∃ close, quoteClose? c = some close ∧
        next c s = (quoted (c :: (splitQuoted close s).1), (splitQuoted close s).2)) ∨
      (isNameChar c = true ∧
        next c s = (word (c :: s.takeWhile isNameChar), s.dropWhile isNameChar)) ∨
      (c = ';' ∧ next c s = (semicolon, s)) ∨
      quoteClose? c = none ∧ c ≠ ';' ∧ isNameChar c = false ∧ next c s = (other c, s) := by
  cases opens : quoteClose? c with
  | some close => exact .inl ⟨close, rfl, next_of_quote opens s⟩
  | none =>
    right
    by_cases isName : isNameChar c = true
    · exact .inl ⟨isName, next_of_name isName s⟩
    · right
      simp only [Bool.not_eq_true] at isName
      by_cases semicolon : c = ';'
      · subst semicolon
        exact .inl ⟨rfl, rfl⟩
      · exact .inr ⟨rfl, semicolon, isName, next_of_other opens semicolon isName s⟩

theorem next_again {c : Char} {s t : List Char} (part : t <+: (next c s).2) :
    ∃ tail, (next c s).1.text = c :: tail ∧ next c (tail ++ t) = ((next c s).1, t) := by
  rcases next_cases c s with
    ⟨close, opens, reads⟩ | ⟨isName, reads⟩ | ⟨rfl, reads⟩ | ⟨opens, semicolon, notName, reads⟩ <;>
    rw [reads] at part ⊢
  · refine ⟨(splitQuoted close s).1, rfl, ?_⟩
    rw [next_of_quote opens]
    rcases splitQuoted_ends (quoteClose?_ne_escape opens) s with ends | ⟨whole, -⟩
    · rw [ends]
    · rw [whole] at part ⊢
      obtain rfl : t = [] := List.prefix_nil.mp part
      rw [List.append_nil, whole]
  · refine ⟨s.takeWhile isNameChar, rfl, ?_⟩
    have apart : ∀ d ∈ t.head?, isNameChar d = false := by
      intro d first
      obtain ⟨rest, split⟩ : t <+: s.dropWhile isNameChar := part
      have begins : (s.dropWhile isNameChar).head? = some d := by
        rw [← split, List.head?_append, Option.mem_def.mp first]
        rfl
      exact stops_dropWhile isNameChar s d begins
    have letters : ∀ d ∈ s.takeWhile isNameChar, isNameChar d = true :=
      List.all_eq_true.mp List.all_takeWhile
    obtain ⟨taken, dropped⟩ := span_append (s := s.takeWhile isNameChar) apart
    rw [next_of_name isName, taken, dropped, List.takeWhile_eq_self_iff.mpr letters,
      List.dropWhile_eq_nil_iff.mpr letters, List.nil_append]
  · exact ⟨[], rfl, rfl⟩
  · exact ⟨[], rfl, next_of_other opens semicolon notName t⟩

end Lexeme

theorem lexemes_right {s : List Char} {before rest : List Lexeme}
    (split : lexemes s = before ++ rest) : lexemes (rest.flatMap Lexeme.text) = rest := by
  induction before generalizing s with
  | nil =>
    rw [List.nil_append] at split
    rw [← split, flatMap_text_lexemes]
  | cons l before ih =>
    cases s with
    | nil => simp [lexemes] at split
    | cons c s =>
      rw [lexemes, List.cons_append] at split
      exact ih (List.cons.inj split).2

theorem lexemes_left {s : List Char} {part rest : List Lexeme}
    (split : lexemes s = part ++ rest) : lexemes (part.flatMap Lexeme.text) = part := by
  induction part generalizing s with
  | nil => simp [lexemes]
  | cons l part ih =>
    cases s with
    | nil => simp [lexemes] at split
    | cons c s =>
      rw [lexemes, List.cons_append] at split
      obtain ⟨rfl, later⟩ := List.cons.inj split
      have followed : part.flatMap Lexeme.text <+: (Lexeme.next c s).2 := by
        refine ⟨rest.flatMap Lexeme.text, ?_⟩
        rw [← List.flatMap_append, ← later, flatMap_text_lexemes]
      obtain ⟨tail, isText, again⟩ := Lexeme.next_again followed
      rw [List.flatMap_cons, isText, List.cons_append, lexemes, again, ih later]

theorem lexemes_part {s : List Char} {part : List Lexeme} (inside : part <:+: lexemes s) :
    lexemes (part.flatMap Lexeme.text) = part := by
  obtain ⟨before, after, split⟩ := inside
  rw [List.append_assoc] at split
  exact lexemes_left (lexemes_right split.symm)

theorem pieces_flatten (ls : List Lexeme) : (pieces ls).1 ++ (pieces ls).2.flatten = ls := by
  fun_induction pieces ls with
  | case1 => rfl
  | case2 ls ih => simp [ih]
  | case3 w ls uncut ih => simp [ih]
  | case4 w ls cut ih => simp [ih]
  | case5 w ls cut ih => simp [ih]
  | case6 w ls cut isCut _ _ attached ih =>
    have split := takeAttached_append cut ls
    simp only [List.flatten_cons, List.nil_append, List.cons_append, ih]
    exact congrArg _ split
  | case7 l ls _ _ ih => simp [ih]

theorem flatten_pieceTexts (code : List Char) : (pieceTexts code).flatten = code := by
  have flat : ((pieces (lexemes code)).1 :: (pieces (lexemes code)).2).flatten = lexemes code :=
    pieces_flatten (lexemes code)
  have whole := flatMap_text_lexemes code
  rwa [← flat, ← List.flatMap_id, List.flatMap_assoc, List.flatMap_def] at whole

theorem takeQualifiers_spaces {spaces : List Lexeme} (areSpaces : ∀ l ∈ spaces, l.isSpace = true)
    (before ls : List Lexeme) :
    takeQualifiers before (spaces ++ ls) = takeQualifiers (before ++ spaces) ls := by
  induction spaces generalizing before with
  | nil => simp
  | cons l spaces ih =>
    rw [List.cons_append, takeQualifiers, if_pos (areSpaces l List.mem_cons_self),
      ih fun other member => areSpaces other (List.mem_cons_of_mem l member)]
    simp

theorem takeQualifiers_taken {spaces : List Lexeme} (areSpaces : ∀ l ∈ spaces, l.isSpace = true)
    (ls : List Lexeme) :
    takeQualifiers [] (takeQualifiers spaces ls).1 = ((takeQualifiers spaces ls).1, []) := by
  fun_induction takeQualifiers spaces ls with
  | case1 spaces => rfl
  | case2 spaces l ls isSpace ih =>
    apply ih
    intro other member
    rcases List.mem_append.mp member with member | member
    · exact areSpaces other member
    · rw [List.mem_singleton.mp member]
      exact isSpace
  | case3 spaces l ls notSpace isQualifier taken rest split ih =>
    have again := ih (by simp)
    rw [split] at again
    rw [takeQualifiers_spaces areSpaces, List.nil_append, takeQualifiers, if_neg notSpace,
      if_pos isQualifier, again]
  | case4 spaces l ls notSpace notQualifier => rfl

theorem takeSemicolon_taken (ls : List Lexeme) :
    takeSemicolon (takeSemicolon ls).1 = ((takeSemicolon ls).1, []) := by
  have shape : (takeSemicolon ls).1 = ls.takeWhile Lexeme.isSpace ++ [.semicolon] ∨
      (takeSemicolon ls).1 = [] := by
    unfold takeSemicolon
    split
    · exact .inl rfl
    · exact .inr rfl
  rcases shape with taken | nothing
  · have spaces : ∀ l ∈ ls.takeWhile Lexeme.isSpace, l.isSpace = true :=
      List.all_eq_true.mp List.all_takeWhile
    have dropped : ([.semicolon] : List Lexeme).dropWhile Lexeme.isSpace = [.semicolon] := rfl
    have kept : ([.semicolon] : List Lexeme).takeWhile Lexeme.isSpace = [] := rfl
    rw [taken, takeSemicolon, List.dropWhile_append_of_pos spaces,
      List.takeWhile_append_of_pos spaces, dropped, kept]
    simp
  · rw [nothing]
    rfl

theorem takeAttached_taken (cut : Cut) (ls : List Lexeme) :
    takeAttached cut (takeAttached cut ls).1 = ((takeAttached cut ls).1, []) := by
  cases cut with
  | aroundSection => exact takeQualifiers_taken (by simp) ls
  | aroundClosing => exact takeSemicolon_taken ls
  | before | after | around => rfl

def IsFirstPiece (piece : List Lexeme) : Prop :=
  (pieces piece).1 = piece ∧ ∀ other ∈ (pieces piece).2, other = []

def IsPiece (piece : List Lexeme) : Prop :=
  IsFirstPiece piece ∨ (pieces piece).1 = [] ∧
    ∃ others, (pieces piece).2 = piece :: others ∧ ∀ other ∈ others, other = []

theorem isPiece_pieces (ls : List Lexeme) :
    IsFirstPiece (pieces ls).1 ∧ ∀ piece ∈ (pieces ls).2, IsPiece piece := by
  fun_induction pieces ls with
  | case1 => simp [IsFirstPiece, pieces]
  | case2 ls ih =>
    obtain ⟨first, others⟩ := ih
    refine ⟨by simp [IsFirstPiece, pieces], ?_⟩
    simpa using ⟨.inl first, others⟩
  | case3 w ls uncut ih =>
    obtain ⟨⟨same, empty⟩, others⟩ := ih
    refine ⟨?_, others⟩
    rw [IsFirstPiece, pieces]
    simpa [uncut, same] using empty
  | case4 w ls cut ih =>
    obtain ⟨⟨same, empty⟩, others⟩ := ih
    refine ⟨by simp [IsFirstPiece, pieces], ?_⟩
    have whole : IsPiece (.word w :: (pieces ls).1) := by
      right
      rw [pieces]
      simpa [cut, same] using empty
    simpa using ⟨whole, others⟩
  | case5 w ls cut ih =>
    obtain ⟨first, others⟩ := ih
    refine ⟨?_, by simpa using ⟨.inl first, others⟩⟩
    rw [IsFirstPiece, pieces]
    simp [cut, pieces]
  | case6 w ls cut notBefore notAfter isCut attached ih =>
    obtain ⟨first, others⟩ := ih
    refine ⟨by simp [IsFirstPiece, pieces], ?_⟩
    have whole : IsPiece (.word w :: attached.1) := by
      right
      rw [pieces_around isCut notBefore notAfter, takeAttached_taken]
      simp [attached, pieces]
    simpa using ⟨whole, .inl first, others⟩
  | case7 l ls notSemicolon notWord ih =>
    obtain ⟨⟨same, empty⟩, others⟩ := ih
    refine ⟨?_, others⟩
    rw [IsFirstPiece, pieces]
    · simpa [same] using empty
    · exact notSemicolon
    · exact notWord

def extendLast (tail : List Lexeme) :
    List Lexeme → List (List Lexeme) → List Lexeme × List (List Lexeme)
  | first, [] => (first ++ tail, [])
  | first, next :: rest =>
    (first, (extendLast tail next rest).1 :: (extendLast tail next rest).2)

theorem extendLast_nil (first : List Lexeme) (rest : List (List Lexeme)) :
    extendLast [] first rest = (first, rest) := by
  induction rest generalizing first with
  | nil => simp [extendLast]
  | cons next rest ih => simp [extendLast, ih]

theorem extendLast_cons (tail : List Lexeme) (l : Lexeme) (first : List Lexeme)
    (rest : List (List Lexeme)) :
    extendLast tail (l :: first) rest =
      (l :: (extendLast tail first rest).1, (extendLast tail first rest).2) := by
  cases rest <;> rfl

section Filler

-- A literal or a single character cuts nothing and is attached to nothing.
variable {l : Lexeme} (notSemicolon : l ≠ .semicolon) (notWord : ∀ w, l ≠ .word w)

include notWord in
theorem takeQualifiers_concat (spaces ls : List Lexeme) :
    takeQualifiers spaces (ls ++ [l]) =
      ((takeQualifiers spaces ls).1, (takeQualifiers spaces ls).2 ++ [l]) := by
  fun_induction takeQualifiers spaces ls with
  | case1 spaces =>
    by_cases isSpace : l.isSpace = true
    · simp [takeQualifiers, isSpace]
    · simp [takeQualifiers, isSpace, notWord]
  | case2 spaces m ls isSpace ih => simp [takeQualifiers, isSpace, ih]
  | case3 spaces m ls notSpace isQualifier taken rest split ih =>
    rw [split] at ih
    rw [List.cons_append, takeQualifiers, if_neg notSpace, if_pos isQualifier, ih]
  | case4 spaces m ls notSpace notQualifier =>
    rw [List.cons_append, takeQualifiers, if_neg notSpace, if_neg notQualifier]
    simp

include notSemicolon in
theorem takeSemicolon_concat (ls : List Lexeme) :
    takeSemicolon (ls ++ [l]) = ((takeSemicolon ls).1, (takeSemicolon ls).2 ++ [l]) := by
  have parts : ls.takeWhile Lexeme.isSpace ++ ls.dropWhile Lexeme.isSpace = ls :=
    List.takeWhile_append_dropWhile
  simp only [takeSemicolon, List.dropWhile_append, List.takeWhile_append]
  cases behind : ls.dropWhile Lexeme.isSpace with
  | nil =>
    by_cases isSpace : l.isSpace = true
    · simp [isSpace]
    · simp only [List.isEmpty_nil, if_true, List.dropWhile_cons, isSpace]
      split
      · rename_i same
        exact absurd (List.cons.inj same).1 notSemicolon
      · rfl
  | cons m rest =>
    have shorter : (ls.takeWhile Lexeme.isSpace).length ≠ ls.length := by
      have lengths := congrArg List.length parts
      simp only [behind, List.length_append, List.length_cons] at lengths
      omega
    by_cases ends : m = .semicolon
    · simp [ends, shorter]
    · simp [ends]

include notSemicolon notWord

theorem takeAttached_concat (cut : Cut) (ls : List Lexeme) :
    takeAttached cut (ls ++ [l]) = ((takeAttached cut ls).1, (takeAttached cut ls).2 ++ [l]) := by
  cases cut with
  | aroundSection => exact takeQualifiers_concat notWord [] ls
  | aroundClosing => exact takeSemicolon_concat notSemicolon ls
  | before | after | around => rfl

theorem pieces_concat (ls : List Lexeme) :
    pieces (ls ++ [l]) = extendLast [l] (pieces ls).1 (pieces ls).2 := by
  fun_induction pieces ls with
  | case1 =>
    rw [List.nil_append, pieces, pieces]
    · rfl
    · exact notSemicolon
    · exact notWord
  | case2 ls ih => simp [pieces, ih, extendLast]
  | case3 w ls uncut ih =>
    rw [List.cons_append, pieces]
    simp [uncut, ih, extendLast_cons]
  | case4 w ls cut ih =>
    rw [List.cons_append, pieces]
    simp [cut, ih, extendLast, extendLast_cons]
  | case5 w ls cut ih =>
    rw [List.cons_append, pieces]
    simp [cut, ih, extendLast]
  | case6 w ls cut notBefore notAfter isCut attached ih =>
    rw [List.cons_append, pieces_around isCut notBefore notAfter,
      takeAttached_concat notSemicolon notWord]
    simp [ih, attached, extendLast]
  | case7 m ls other another ih =>
    rw [List.cons_append, pieces, ih, extendLast_cons]
    · exact other
    · exact another

end Filler

theorem map_trim_extendLast {tail other : List Lexeme}
    (same : ∀ text, trim (text ++ tail.flatMap Lexeme.text) =
      trim (text ++ other.flatMap Lexeme.text))
    (first : List Lexeme) (rest : List (List Lexeme)) :
    ((extendLast tail first rest).1 :: (extendLast tail first rest).2).map
        (fun piece => trim (piece.flatMap Lexeme.text)) =
      ((extendLast other first rest).1 :: (extendLast other first rest).2).map
        (fun piece => trim (piece.flatMap Lexeme.text)) := by
  induction rest generalizing first with
  | nil => simp [extendLast, same]
  | cons next rest ih => simpa [extendLast] using ih next

theorem not_blank_of_quoteClose? {c close : Char} (opens : quoteClose? c = some close) :
    isBlank close = false := by
  have visible : (['\x7d', '\x27', '\x22'].all fun c => !isBlank c) = true := by decide
  simpa using List.all_eq_true.mp visible close (quoteClose?_mem opens)

-- A blank behind a text is read later, unless the text is a literal that is not closed.
theorem Lexeme.next_concat_blank {b : Char} (blank : isBlank b = true) (c : Char) (s : List Char) :
    next c (s ++ [b]) = ((next c s).1, (next c s).2 ++ [b]) ∨
      next c s = (quoted (c :: s), []) ∧ next c (s ++ [b]) = (quoted (c :: s ++ [b]), []) := by
  cases opens : quoteClose? c with
  | none =>
    have apart : ∀ d ∈ [b].head?, isNameChar d = false := by simpa using notName_of_blank blank
    exact .inl (next_append opens apart)
  | some close =>
    have notClose : b ≠ close := by
      rintro rfl
      rw [not_blank_of_quoteClose? opens] at blank
      cases blank
    simp only [next_of_quote opens]
    rcases splitQuoted_ends (quoteClose?_ne_escape opens) s with ends | ⟨whole, goesOn⟩
    · left
      have later : splitQuoted close (s ++ [b]) =
          ((splitQuoted close s).1, (splitQuoted close s).2 ++ [b]) := by
        rw [← ends, ← List.append_assoc, splitQuoted_append]
      rw [later]
    · right
      rw [whole, goesOn b notClose]
      exact ⟨rfl, rfl⟩

theorem lexemes_concat_blank {b : Char} (blank : isBlank b = true) (s : List Char) :
    ∃ before tail later, lexemes s = before ++ tail ∧ lexemes (s ++ [b]) = before ++ later ∧
      (tail = [] ∧ later = [.other b] ∨
        ∃ text, tail = [.quoted text] ∧ later = [.quoted (text ++ [b])]) := by
  fun_induction lexemes s with
  | case1 =>
    refine ⟨[], [], [.other b], rfl, ?_, .inl ⟨rfl, rfl⟩⟩
    rw [List.nil_append, lexemes, Lexeme.next_of_blank blank, lexemes]
    rfl
  | case2 c s ih =>
    rw [List.cons_append, lexemes]
    rcases Lexeme.next_concat_blank blank c s with later | ⟨whole, goesOn⟩
    · obtain ⟨before, tail, others, split, splitLater, shape⟩ := ih
      refine ⟨(Lexeme.next c s).1 :: before, tail, others, ?_, ?_, shape⟩
      · rw [split]
        rfl
      · rw [later, splitLater]
        rfl
    · refine ⟨[], [.quoted (c :: s)], [.quoted (c :: s ++ [b])], ?_, ?_, .inr ⟨_, rfl, rfl⟩⟩
      · rw [whole, lexemes]
        rfl
      · rw [goesOn, lexemes]
        rfl

theorem map_text_fragments_concat_blank {b : Char} (blank : isBlank b = true) (s : List Char) :
    (fragments (s ++ [b])).map Fragment.text = (fragments s).map Fragment.text := by
  have trims (text : List Char) : trim (text ++ [b]) = trim text :=
    trim_append_blank (by simpa using blank) text
  obtain ⟨before, tail, later, split, splitLater, shape⟩ := lexemes_concat_blank blank s
  rw [map_text_fragments, map_text_fragments]
  congr 1
  simp only [pieceTexts, split, splitLater]
  rcases shape with ⟨rfl, rfl⟩ | ⟨text, rfl, rfl⟩
  · have cuts : pieces (before ++ []) = extendLast [] (pieces before).1 (pieces before).2 := by
      rw [List.append_nil, extendLast_nil]
    rw [cuts, pieces_concat (by simp) (by simp), List.map_map, List.map_map]
    refine map_trim_extendLast ?_ ..
    intro front
    simpa [Lexeme.text] using trims front
  · rw [pieces_concat (by simp) (by simp), pieces_concat (by simp) (by simp), List.map_map,
      List.map_map]
    refine map_trim_extendLast ?_ ..
    intro front
    simpa [Lexeme.text] using trims (front ++ text)

theorem map_text_fragments_append_blank {blank : List Char}
    (isBlank : ∀ c ∈ blank, isBlank c = true) (s : List Char) :
    (fragments (s ++ blank)).map Fragment.text = (fragments s).map Fragment.text := by
  induction blank generalizing s with
  | nil => rw [List.append_nil]
  | cons b blank ih =>
    have one := map_text_fragments_concat_blank (isBlank b List.mem_cons_self) s
    have others := ih (fun c member => isBlank c (List.mem_cons_of_mem b member)) (s ++ [b])
    rw [← one, ← others, List.append_assoc]
    rfl

theorem map_text_fragments_trim (s : List Char) :
    (fragments (trim s)).map Fragment.text = (fragments s).map Fragment.text := by
  obtain ⟨lead, tail, split, leading, trailing⟩ := trim_append s
  nth_rewrite 2 [split]
  rw [List.append_assoc, map_text_fragments_blank_append leading,
    map_text_fragments_append_blank trailing]

theorem isPiece_of_mem {ls piece : List Lexeme}
    (member : piece ∈ (pieces ls).1 :: (pieces ls).2) : piece <:+: ls ∧ IsPiece piece := by
  have flat : ((pieces ls).1 :: (pieces ls).2).flatten = ls := pieces_flatten ls
  obtain ⟨first, others⟩ := isPiece_pieces ls
  refine ⟨flat ▸ List.infix_of_mem_flatten member, ?_⟩
  rcases List.mem_cons.mp member with rfl | member
  · exact .inl first
  · exact others piece member

theorem filter_isFragment_of_isPiece {piece : List Lexeme}
    (alone : lexemes (piece.flatMap Lexeme.text) = piece) (isPiece : IsPiece piece)
    (visible : isFragment (trim (piece.flatMap Lexeme.text)) = true) :
    ((pieceTexts (piece.flatMap Lexeme.text)).map trim).filter isFragment =
      [trim (piece.flatMap Lexeme.text)] := by
  have unseen : ¬ isFragment (trim ([].flatMap Lexeme.text)) = true := by decide
  have nothing {others : List (List Lexeme)} (empty : ∀ other ∈ others, other = []) :
      ((others.map fun other => other.flatMap Lexeme.text).map trim).filter isFragment = [] := by
    simp only [List.filter_eq_nil_iff, List.mem_map]
    rintro text ⟨blank, ⟨other, member, rfl⟩, rfl⟩
    rw [empty other member]
    exact unseen
  simp only [pieceTexts, alone]
  rcases isPiece with ⟨same, empty⟩ | ⟨first, others, split, empty⟩
  · rw [same, List.map_cons, List.map_cons, List.filter_cons_of_pos visible, nothing empty]
  · rw [first, split, List.map_cons, List.map_cons, List.map_cons, List.map_cons,
      List.filter_cons_of_neg unseen, List.filter_cons_of_pos visible, nothing empty]

theorem map_text_fragments_text {code : List Char} {fragment : Fragment}
    (member : fragment ∈ fragments code) :
    (fragments fragment.text).map Fragment.text = [fragment.text] := by
  have among : fragment.text ∈ ((pieceTexts code).map trim).filter isFragment := by
    rw [← map_text_fragments]
    exact List.mem_map_of_mem member
  obtain ⟨isTrimmed, visible⟩ := List.mem_filter.mp among
  obtain ⟨text, isText, trimmed⟩ := List.mem_map.mp isTrimmed
  obtain ⟨piece, isPart, rfl⟩ := List.mem_map.mp isText
  obtain ⟨inside, isPiece⟩ := isPiece_of_mem isPart
  rw [← trimmed] at visible ⊢
  rw [map_text_fragments_trim, map_text_fragments,
    filter_isFragment_of_isPiece (lexemes_part inside) isPiece visible]

end StructuredText
