import StructuredText.Proofs.AtomicPieces

set_option autoImplicit false

namespace StructuredText

section Quotes

variable {close : Char}

theorem splitQuoted_append_of_closed (noEscape : close ≠ '$') {s : List Char}
    (closed : (Scan.inside close).after s = .outside) (t : List Char) :
    splitQuoted close (s ++ t) = ((splitQuoted close s).1, (splitQuoted close s).2 ++ t) := by
  fun_induction splitQuoted close s with
  | case1 => cases closed
  | case2 c rest quoted after split ih =>
    have later := ih (by simpa [Scan.after_cons, Scan.next] using closed)
    rw [split] at later
    simp [splitQuoted, later]
  | case3 rest notEscaped => simp [splitQuoted, noEscape]
  | case4 c rest notEscaped other quoted after split ih =>
    by_cases escape : c = '$'
    · cases rest with
      | nil =>
        rw [Scan.after_cons, Scan.next, if_pos escape] at closed
        cases closed
      | cons d rest => exact absurd rfl (notEscaped d rest escape)
    · have later := ih (by simpa [Scan.after_cons, Scan.next, escape, other] using closed)
      rw [split] at later
      simp [splitQuoted, escape, other, later]

theorem last_splitQuoted {s : List Char} (followed : (splitQuoted close s).2 ≠ []) :
    (splitQuoted close s).1.getLast? = some close := by
  fun_induction splitQuoted close s with
  | case1 => exact absurd rfl followed
  | case2 c rest quoted after split ih =>
    rw [split] at ih
    simp [List.getLast?_cons, ih followed]
  | case3 rest notEscaped => rfl
  | case4 c rest notEscaped other quoted after split ih =>
    rw [split] at ih
    simp [List.getLast?_cons, ih followed]

end Quotes

section Words

-- A text that ends outside of strings and pragmas is read as if nothing followed it, unless a word
-- goes on behind it.
theorem Lexeme.next_of_closed {c : Char} {s t : List Char}
    (closed : Scan.outside.after (c :: s) = .outside)
    (apart : ∀ e ∈ (c :: s).getLast?, isNameChar e = true → ∀ d ∈ t.head?, isNameChar d = false) :
    next c (s ++ t) = ((next c s).1, (next c s).2 ++ t) := by
  rcases next_cases c s with
    ⟨close, opens, reads⟩ | ⟨isName, reads⟩ | ⟨rfl, reads⟩ | ⟨opens, semicolon, notName, reads⟩ <;>
    rw [reads]
  · rw [Scan.after_cons, Scan.next_outside, opens] at closed
    have later := splitQuoted_append_of_closed (quoteClose?_ne_escape opens) closed t
    rw [next_of_quote opens, later]
  · rw [next_of_name isName]
    cases behind : s.dropWhile isNameChar with
    | nil =>
      have letters : ∀ d ∈ c :: s, isNameChar d = true := by
        simpa [isName] using List.dropWhile_eq_nil_iff.mp behind
      have stops : ∀ d ∈ t.head?, isNameChar d = false := by
        have last := List.getLast?_eq_some_getLast (List.cons_ne_nil c s)
        exact apart _ last (letters _ (List.getLast_mem _))
      obtain ⟨taken, dropped⟩ := span_append (s := s) stops
      rw [taken, dropped, behind]
    | cons d rest =>
      have parts := List.takeWhile_append_dropWhile (p := isNameChar) (l := s)
      have lengths := congrArg List.length parts
      rw [behind, List.length_append, List.length_cons] at lengths
      have shorter : (s.takeWhile isNameChar).length ≠ s.length := by omega
      rw [List.takeWhile_append, if_neg shorter, List.dropWhile_append, behind]
      rfl
  · rfl
  · exact next_of_other opens semicolon notName (s ++ t)

theorem lexemes_append_of_closed {s t : List Char} (closed : Scan.outside.after s = .outside)
    (apart : ∀ e ∈ s.getLast?, isNameChar e = true → ∀ d ∈ t.head?, isNameChar d = false) :
    lexemes (s ++ t) = lexemes s ++ lexemes t := by
  fun_induction lexemes s with
  | case1 => rfl
  | case2 c s ih =>
    have whole := Lexeme.next_text c s
    have later : Scan.outside.after (Lexeme.next c s).2 = .outside := by
      by_cases followed : (Lexeme.next c s).2 = []
      · rw [followed]
        rfl
      · rwa [← whole, Scan.after_append, Scan.after_next followed] at closed
    have lastOfRest : ∀ e ∈ (Lexeme.next c s).2.getLast?, e ∈ (c :: s).getLast? := by
      intro e last
      rw [← whole, List.getLast?_append, Option.mem_def.mp last]
      rfl
    rw [List.cons_append, lexemes, Lexeme.next_of_closed closed apart,
      ih later fun e last => apart e (lastOfRest e last), List.cons_append]

structure IsWordIn (before word after : List Char) : Prop where
  outside : Scan.outside.after before = .outside
  nonempty : word ≠ []
  letters : ∀ c ∈ word, isNameChar c = true
  begins : ∀ c ∈ before.getLast?, isNameChar c = false
  ends : ∀ c ∈ after.head?, isNameChar c = false

theorem IsWordIn.lexemes {before word after : List Char} (isWord : IsWordIn before word after) :
    lexemes (before ++ word ++ after) =
      StructuredText.lexemes before ++ .word word :: StructuredText.lexemes after := by
  rw [List.append_assoc, lexemes_append_of_closed isWord.outside,
    lexemes_word_append isWord.nonempty isWord.letters isWord.ends]
  intro e last isName
  rw [isWord.begins e last] at isName
  cases isName

theorem lexemes_semicolon {before : List Char} (outside : Scan.outside.after before = .outside)
    (after : List Char) :
    lexemes (before ++ ';' :: after) = lexemes before ++ .semicolon :: lexemes after := by
  have semicolon : lexemes (';' :: after) = .semicolon :: lexemes after := by
    rw [lexemes]
    rfl
  rw [lexemes_append_of_closed outside, semicolon]
  intro e _ _ d first
  obtain rfl : ';' = d := Option.some.inj first
  rfl

theorem lexemes_eq_word_cons {s w : List Char} {ls : List Lexeme}
    (split : lexemes s = .word w :: ls) :
    ∃ c rest, s = c :: rest ∧ isNameChar c = true ∧ w = c :: rest.takeWhile isNameChar ∧
      ls = lexemes (rest.dropWhile isNameChar) := by
  cases s with
  | nil => simp [lexemes] at split
  | cons c rest =>
    rw [lexemes] at split
    obtain ⟨first, later⟩ := List.cons.inj split
    rcases Lexeme.next_cases c rest with
      ⟨close, -, reads⟩ | ⟨isName, reads⟩ | ⟨-, reads⟩ | ⟨-, -, -, reads⟩ <;>
      rw [reads] at first later
    · cases first
    · exact ⟨c, rest, rfl, isName, (Lexeme.word.inj first).symm, later.symm⟩
    · cases first
    · cases first

-- No lexeme but a word ends with a letter, and a word takes in all letters.
theorem Lexeme.last_next {c d : Char} {s : List Char} (followed : d ∈ (next c s).2.head?)
    (isName : isNameChar d = true) : ∀ e ∈ (next c s).1.text.getLast?, isNameChar e = false := by
  rcases next_cases c s with
    ⟨close, opens, reads⟩ | ⟨-, reads⟩ | ⟨-, reads⟩ | ⟨-, -, notName, reads⟩ <;>
    rw [reads] at followed ⊢
  · have nonempty : (splitQuoted close s).2 ≠ [] := by
      intro nothing
      rw [nothing] at followed
      cases followed
    have notName : (['\x7d', '\x27', '\x22'].all fun c => !isNameChar c) = true := by decide
    intro e last
    rw [text, List.getLast?_cons, last_splitQuoted nonempty] at last
    obtain rfl : close = e := Option.some.inj last
    simpa using List.all_eq_true.mp notName close (quoteClose?_mem opens)
  · have stops := stops_dropWhile isNameChar s d followed
    rw [isName] at stops
    cases stops
  · rintro e ⟨⟩
    rfl
  · rintro e ⟨⟩
    exact notName

theorem isWordIn_of_lexemes {s w : List Char} {front back : List Lexeme}
    (split : lexemes s = front ++ .word w :: back) :
    IsWordIn (front.flatMap Lexeme.text) w (back.flatMap Lexeme.text) := by
  obtain ⟨c, rest, -, isName, rfl, rfl⟩ := lexemes_eq_word_cons (lexemes_right split)
  refine ⟨Scan.after_lexemes split, List.cons_ne_nil c _, ?letters, ?begins, ?ends⟩
  case letters => exact List.forall_mem_cons.mpr ⟨isName, List.all_eq_true.mp List.all_takeWhile⟩
  case ends =>
    rw [flatMap_text_lexemes]
    exact stops_dropWhile isNameChar rest
  case begins =>
    rcases List.eq_nil_or_concat front with rfl | ⟨before, l, rfl⟩
    · exact nofun
    · rw [List.concat_eq_append, List.append_assoc] at split
      have both := lexemes_right split
      generalize ([l] ++ _).flatMap Lexeme.text = u at both
      cases u with
      | nil => simp [lexemes] at both
      | cons e u =>
        rw [lexemes] at both
        obtain ⟨rfl, later⟩ := List.cons.inj both
        obtain ⟨d, others, behind, isName, -⟩ := lexemes_eq_word_cons later
        obtain ⟨tail, isText, -⟩ := @Lexeme.next_again e u [] List.nil_prefix
        have last := Lexeme.last_next (behind ▸ rfl : d ∈ (Lexeme.next e u).2.head?) isName
        intro x isLast
        refine last x ?_
        rw [isText]
        simpa [isText] using isLast

end Words

def Cut.FallsOnEnds (front back : List Char) : Cut → Prop
  | before => front = []
  | after => back = []
  | around => front = [] ∧ back = []
  | aroundClosing => front = [] ∧
      (back = [] ∨ ∃ spaces, (∀ c ∈ spaces, isSpacing c = true) ∧ back = spaces ++ [';'])
  | aroundSection => front = [] ∧ (∀ c ∈ back, isSpacing c = true ∨ isNameChar c = true) ∧
      ∀ word ∈ asciiWords back, ∃ keyword ∈ sectionQualifiers, word = keyword.toList

structure IsAtomic (text : List Char) : Prop where
  semicolon : ∀ front back, text = front ++ ';' :: back →
    Scan.outside.after front = .outside → back = []
  word : ∀ front word back, text = front ++ word ++ back → IsWordIn front word back →
    ∀ cut, Cut.ofWord? word = some cut → cut.FallsOnEnds front back

section Ends

theorem lexemes_eq_nil_iff {s : List Char} : lexemes s = [] ↔ s = [] := by
  cases s <;> simp [lexemes]

theorem lexemes_spaces {spaces : List Char} (areSpaces : ∀ c ∈ spaces, isSpacing c = true) :
    lexemes (spaces ++ [';']) = spaces.map Lexeme.other ++ [.semicolon] := by
  have semicolon : lexemes [';'] = [.semicolon] := by decide +kernel
  rw [lexemes_blank_append fun c member => isBlank_of_isSpacing (areSpaces c member), semicolon]

theorem spacing_of_mem_text {l : Lexeme} (isSpace : l.isSpace = true) {c : Char}
    (member : c ∈ l.text) : isSpacing c = true := by
  cases l with
  | other d =>
    obtain rfl : c = d := List.mem_singleton.mp member
    exact isSpace
  | quoted | word | semicolon => cases isSpace

theorem mem_lexemes {s : List Char} {l : Lexeme} (member : l ∈ lexemes s) :
    ∃ c rest, c ∈ s ∧ l = (Lexeme.next c rest).1 := by
  fun_induction lexemes s with
  | case1 => cases member
  | case2 c s ih =>
    rcases List.mem_cons.mp member with rfl | later
    · exact ⟨c, s, List.mem_cons_self, rfl⟩
    · obtain ⟨d, rest, inside, rfl⟩ := ih later
      exact ⟨d, rest, Lexeme.mem_of_mem_next inside, rfl⟩

theorem closing_iff {back : List Char} :
    (∃ spaces, (∀ l ∈ spaces, l.isSpace = true) ∧ lexemes back = spaces ++ [.semicolon]) ↔
      ∃ spaces, (∀ c ∈ spaces, isSpacing c = true) ∧ back = spaces ++ [';'] := by
  constructor
  · rintro ⟨spaces, areSpaces, split⟩
    refine ⟨spaces.flatMap Lexeme.text, ?_, ?_⟩
    · intro c member
      obtain ⟨l, inside, isText⟩ := List.mem_flatMap.mp member
      exact spacing_of_mem_text (areSpaces l inside) isText
    · rw [← flatMap_text_lexemes back, split, List.flatMap_append]
      rfl
  · rintro ⟨spaces, areSpaces, rfl⟩
    refine ⟨spaces.map Lexeme.other, ?_, lexemes_spaces areSpaces⟩
    simpa [Lexeme.isSpace] using areSpaces

theorem section_iff {back : List Char} :
    (∀ l ∈ lexemes back, l.isSpace = true ∨ l.isQualifier = true) ↔
      (∀ c ∈ back, isSpacing c = true ∨ isNameChar c = true) ∧
        ∀ word ∈ asciiWords back, ∃ keyword ∈ sectionQualifiers, word = keyword.toList := by
  have unquoted (plain : ∀ c ∈ back, isSpacing c = true ∨ isNameChar c = true) :
      ∀ c ∈ back, quoteClose? c = none := by
    intro c member
    rcases plain c member with isSpacing | isName
    · exact quoteClose?_of_blank (isBlank_of_isSpacing isSpacing)
    · exact quoteClose?_of_name isName
  constructor
  · intro parts
    have plain : ∀ c ∈ back, isSpacing c = true ∨ isNameChar c = true := by
      have letters : ∀ keyword ∈ sectionQualifiers, keyword.toList.all isNameChar = true := by
        decide
      intro c member
      rw [← flatMap_text_lexemes back] at member
      obtain ⟨l, inside, isText⟩ := List.mem_flatMap.mp member
      rcases parts l inside with isSpace | isQualifier
      · exact .inl (spacing_of_mem_text isSpace isText)
      · obtain ⟨keyword, isKeyword, rfl⟩ := Lexeme.isQualifier_iff.mp isQualifier
        exact .inr (List.all_eq_true.mp (letters keyword isKeyword) c isText)
    refine ⟨plain, fun word member => ?_⟩
    rw [← filterMap_word?_lexemes (unquoted plain)] at member
    obtain ⟨l, inside, isWord⟩ := List.mem_filterMap.mp member
    rcases parts l inside with isSpace | isQualifier
    · cases l with
      | other => cases isWord
      | quoted | word | semicolon => cases isSpace
    · obtain ⟨keyword, isKeyword, rfl⟩ := Lexeme.isQualifier_iff.mp isQualifier
      exact ⟨keyword, isKeyword, (Option.some.inj isWord).symm⟩
  · rintro ⟨plain, qualifiers⟩ l member
    obtain ⟨c, rest, inside, rfl⟩ := mem_lexemes member
    rcases plain c inside with isSpacing | isName
    · left
      rw [Lexeme.next_of_blank (isBlank_of_isSpacing isSpacing)]
      exact isSpacing
    · right
      rw [Lexeme.next_of_name isName] at member ⊢
      have isWord : c :: rest.takeWhile isNameChar ∈ asciiWords back := by
        rw [← filterMap_word?_lexemes (unquoted plain)]
        exact List.mem_filterMap.mpr ⟨_, member, rfl⟩
      obtain ⟨keyword, isKeyword, same⟩ := qualifiers _ isWord
      exact Lexeme.isQualifier_iff.mpr ⟨keyword, isKeyword, congrArg Lexeme.word same⟩

theorem Cut.fits_iff {front back : List Char} (cut : Cut) :
    cut.Fits (lexemes front = []) (lexemes back) ↔ cut.FallsOnEnds front back := by
  cases cut with
  | before => exact lexemes_eq_nil_iff
  | after => exact lexemes_eq_nil_iff
  | around => exact and_congr lexemes_eq_nil_iff lexemes_eq_nil_iff
  | aroundClosing => exact and_congr lexemes_eq_nil_iff (or_congr lexemes_eq_nil_iff closing_iff)
  | aroundSection => exact and_congr lexemes_eq_nil_iff section_iff

end Ends

theorem allFit_lexemes_iff {text : List Char} : AllFit (lexemes text) ↔ IsAtomic text := by
  rw [allFit_iff]
  constructor
  · intro all
    refine ⟨fun front back whole outside => ?_, fun front word back whole isWord cut isCut => ?_⟩
    · have fits : Lexeme.semicolon.Fits (lexemes front = []) (lexemes back) :=
        all _ _ _ (whole ▸ lexemes_semicolon outside back)
      exact lexemes_eq_nil_iff.mp fits
    · have fits : (Lexeme.word word).Fits (lexemes front = []) (lexemes back) :=
        all _ _ _ (whole ▸ isWord.lexemes)
      exact cut.fits_iff.mp (fits cut isCut)
  · intro atomic front l back split
    have isFront : lexemes (front.flatMap Lexeme.text) = front := lexemes_left split
    have isBack : lexemes (back.flatMap Lexeme.text) = back := by
      rw [← List.singleton_append, ← List.append_assoc] at split
      exact lexemes_right split
    have whole := flatMap_text_lexemes text
    rw [split, List.flatMap_append, List.flatMap_cons] at whole
    cases l with
    | quoted | other => trivial
    | semicolon =>
      have nothing := atomic.semicolon _ _ whole.symm (Scan.after_lexemes split)
      exact isBack ▸ lexemes_eq_nil_iff.mpr nothing
    | word w =>
      intro cut isCut
      rw [← List.append_assoc] at whole
      have falls := atomic.word _ w _ whole.symm (isWordIn_of_lexemes split) cut isCut
      rw [← cut.fits_iff, isFront, isBack] at falls
      exact falls

theorem isAtomic_of_mem {code : List Char} {fragment : Fragment}
    (member : fragment ∈ fragments code) : IsAtomic fragment.text := by
  have alone := fragments_of_single (map_text_fragments_text member)
  obtain ⟨-, -, -, fit⟩ := (fragments_eq_self_iff _).mp alone
  exact allFit_lexemes_iff.mp fit

theorem fragments_eq_nil_iff {code : List Char} :
    fragments code = [] ↔ ∀ c ∈ code, isBlank c = true ∨ c = ';' := by
  constructor
  · intro nothing c member
    obtain ⟨before, after, whole⟩ := List.append_of_mem member
    rw [← flatten_pieceTexts code] at whole
    by_cases blank : isBlank c = true
    · exact .inl blank
    · rcases covered_by_fragmentsFrom 0 whole (Bool.not_eq_true _ ▸ blank) with
        ⟨fragment, isPart, -⟩ | ⟨semicolon, -⟩
      · change fragment ∈ fragments code at isPart
        rw [nothing] at isPart
        cases isPart
      · exact .inr semicolon
  · intro semicolons
    refine List.eq_nil_iff_forall_not_mem.mpr fun fragment member => ?_
    obtain ⟨⟨front, back, whole, -⟩, -, nonempty, visible⟩ := standsIn_fragments member
    obtain ⟨c, rest, isText⟩ := List.exists_cons_of_ne_nil nonempty
    have alone := fragments_of_single (map_text_fragments_text member)
    obtain ⟨-, -, more, -⟩ := (fragments_eq_self_iff _).mp alone
    have visible : isBlank c = false := visible c (by simp [isText])
    have inside : c ∈ code := by simp [whole, isText]
    obtain rfl := (semicolons c inside).resolve_left (by simp [visible])
    have ends : rest = [] := (isAtomic_of_mem member).semicolon [] rest isText rfl
    exact more (by rw [isText, ends])

/-- A fragment is the only fragment of its text, at its start and all of it. A text is its only
fragment if it begins and ends visibly, is more than a semicolon, and no cut falls inside it. -/
theorem fragments_atomic (code : List Char) :
    (∀ fragment ∈ fragments code,
        fragments fragment.text = [⟨fragment.text, 0, width fragment.text⟩] ∧
          IsAtomic fragment.text) ∧
      ∀ text, fragments text = [⟨text, 0, width text⟩] ↔
        trim text = text ∧ text ≠ [] ∧ text ≠ [';'] ∧ IsAtomic text := by
  have whenAlone (text : List Char) : fragments text = [⟨text, 0, width text⟩] ↔
      trim text = text ∧ text ≠ [] ∧ text ≠ [';'] ∧ IsAtomic text := by
    rw [fragments_eq_self_iff, allFit_lexemes_iff]
  refine ⟨fun fragment member => ?_, whenAlone⟩
  have alone := fragments_of_single (map_text_fragments_text member)
  exact ⟨alone, isAtomic_of_mem member⟩

theorem fragments_atomic_spacedClosing :
    ⟨"END_IF ;".toList, 3, 11⟩ ∈ fragments "x; END_IF ; y".toList ∧
      fragments "END_IF ;".toList = [⟨"END_IF ;".toList, 0, 8⟩] ∧ IsAtomic "END_IF ;".toList :=
  have member : ⟨"END_IF ;".toList, 3, 11⟩ ∈ fragments "x; END_IF ; y".toList := by decide +kernel
  ⟨member, (fragments_atomic _).1 _ member⟩

end StructuredText
