import StructuredText.Proofs.AtomicFragments
import StructuredText.Proofs.ReadParts

set_option autoImplicit false

namespace StructuredText

open Reader

def leadingWord (s : List Char) : List Char :=
  s.takeWhile isNameChar

def IsClosingWord (word : List Char) : Prop :=
  (∃ keyword ∈ closingKeywords, word = keyword.toList) ∨ sameLetters word "END_IF".toList = true

def IsCutAround (word : List Char) : Prop :=
  (∃ keyword ∈ sectionKeywords, word = keyword.toList) ∨ IsClosingWord word ∨
    sameLetters word "ELSE".toList = true

def closings (text : List Char) : List Bool :=
  [(ClosingWord.read? text).isSome, BlockWord.read? text == some .closing,
    ConditionalWord.read? text == some .endIf]

section Cuts

variable {word : List Char}

theorem sameLetters_iff {keyword : List Char} :
    sameLetters word keyword = true ↔ word.map Char.toUpper = keyword.map Char.toUpper :=
  beq_iff_eq

theorem among_of_letters {keyword : String} (letters : word.map Char.toUpper = keyword.toList)
    (keywords : List String)
    (others : (keywords.all fun other => other.toList.map Char.toUpper != keyword.toList) = true) :
    (keywords.any fun other => other.toList == word) = false := by
  simp only [List.any_eq_false, beq_iff_eq]
  rintro other member rfl
  exact bne_iff_ne.mp (List.all_eq_true.mp others other member) letters

theorem ofWord?_else (same : sameLetters word "ELSE".toList = true) :
    Cut.ofWord? word = some .around := by
  have letters : word.map Char.toUpper = "ELSE".toList := sameLetters_iff.mp same
  have noHeader := among_of_letters letters headerKeywords (by decide)
  simp [Cut.ofWord?, sameLetters, letters, noHeader]

theorem ofWord?_closing (closes : IsClosingWord word) :
    Cut.ofWord? word = some .aroundClosing := by
  rcases closes with ⟨keyword, member, rfl⟩ | same
  · have all : ∀ keyword ∈ closingKeywords,
        Cut.ofWord? keyword.toList = some .aroundClosing := by decide +kernel
    exact all keyword member
  · have letters : word.map Char.toUpper = "END_IF".toList := sameLetters_iff.mp same
    have noHeader := among_of_letters letters headerKeywords (by decide)
    simp [Cut.ofWord?, sameLetters, letters, noHeader]

theorem ofWord?_section {keyword : String} (member : keyword ∈ sectionKeywords) :
    Cut.ofWord? keyword.toList = some .aroundSection := by
  have all : ∀ keyword ∈ sectionKeywords, Cut.ofWord? keyword.toList = some .aroundSection := by
    decide +kernel
  exact all keyword member

end Cuts

section Word

variable {word back : List Char}

theorem leadingWord_append (letters : ∀ c ∈ word, isNameChar c = true)
    (apart : ∀ d ∈ back.head?, isNameChar d = false) : leadingWord (word ++ back) = word := by
  rw [leadingWord, (span_append apart).1, List.takeWhile_eq_self_iff.mpr letters]

theorem isWordIn_leadingWord {text : List Char} (nonempty : leadingWord text ≠ []) :
    ∃ back, text = leadingWord text ++ back ∧ IsWordIn [] (leadingWord text) back := by
  refine ⟨text.dropWhile isNameChar, List.takeWhile_append_dropWhile.symm, rfl, nonempty, ?_,
    by simp, stops_dropWhile isNameChar text⟩
  exact List.all_eq_true.mp List.all_takeWhile

theorem map_foldCase_of_name (letters : ∀ c ∈ word, isNameChar c = true) :
    word.map foldCase = word.map Char.toUpper := by
  apply List.map_congr_left
  intro c member
  have notLong : c ≠ 'ſ' := by
    rintro rfl
    exact absurd (letters 'ſ' member) (by decide)
  rw [foldCase, if_neg notLong]

theorem last_visible (letters : ∀ c ∈ word, isNameChar c = true) :
    ∀ c ∈ word.getLast?, isBlank c = false :=
  fun c last => isBlank_of_name (letters c (List.mem_of_mem_getLast? last))

theorem withoutTerminator_closing (letters : ∀ c ∈ word, isNameChar c = true)
    (ending : back = [] ∨
      ∃ spaces, (∀ c ∈ spaces, isSpacing c = true) ∧ back = spaces ++ [';']) :
    withoutTerminator (word ++ back) = word := by
  obtain rfl | ⟨spaces, areSpaces, rfl⟩ := ending
  · have noSemicolon : word.getLast? ≠ some ';' := by
      intro last
      exact absurd (letters ';' (List.mem_of_getLast? last)) (by decide)
    rw [List.append_nil, withoutTerminator, if_neg noSemicolon,
      trimEnd_of_last (last_visible letters)]
  · have blank : ∀ c ∈ spaces, isBlank c = true :=
      fun c member => isBlank_of_isSpacing (areSpaces c member)
    rw [← List.append_assoc, withoutTerminator, List.getLast?_concat, if_pos rfl,
      List.dropLast_concat, trimEnd_append_blank blank, trimEnd_of_last (last_visible letters)]

end Word

section Closing

variable {word back : List Char} {keyword : String}

theorem notOpening (letters : word.map foldCase = keyword.toList)
    (starts : keyword.toList.head? = some 'E') (back : List Char) {opening : String}
    (other : opening.toList.head?.any (· != 'E') = true) :
    afterKeyword? opening (word ++ back) = none := by
  cases word with
  | nil =>
    rw [← letters] at starts
    cases starts
  | cons c word =>
    have first : foldCase c = 'E' := by
      rw [← letters] at starts
      exact Option.some.inj starts
    rw [List.cons_append]
    apply afterKeyword?_of_head
    rwa [first]

theorem BlockWord.read?_closingText (letters : word.map foldCase = keyword.toList)
    (starts : keyword.toList.head? = some 'E')
    (single : withoutTerminator (word ++ back) = word) :
    BlockWord.read? (word ++ back) =
      if BlockWord.keywords.any fun block => keyword == "END_" ++ block then some .closing
      else none := by
  have noOpening : (BlockWord.keywords.any fun block => startsWithWord block (word ++ back)) =
      false := by
    have others : ∀ block ∈ BlockWord.keywords, block.toList.head?.any (· != 'E') = true := by
      decide
    simp only [List.any_eq_false]
    intro block member
    rw [startsWithWord, notOpening letters starts back (others block member)]
    decide
  have closes (block : String) :
      isKeyword ("END_" ++ block) word = (keyword == "END_" ++ block) := by
    rw [isKeyword, letters, Bool.eq_iff_iff, beq_iff_eq, beq_iff_eq, String.toList_inj]
  rw [BlockWord.read?, noOpening, single]
  simp only [closes]
  rfl

theorem ConditionalWord.read?_closingText (letters : word.map foldCase = keyword.toList)
    (starts : keyword.toList.head? = some 'E')
    (other : 5 ≤ keyword.toList.length ∧ keyword.toList.take 5 ≠ "ELSIF".toList)
    (single : withoutTerminator (word ++ back) = word) :
    ConditionalWord.read? (word ++ back) = if keyword = "END_IF" then some .endIf else none := by
  have long : 5 ≤ word.length := by
    have same := congrArg List.length letters
    rw [List.length_map] at same
    omega
  have noIf : ConditionalWord.condition? "IF" (word ++ back) = none := by
    rw [ConditionalWord.condition?, notOpening letters starts back (by decide)]
    rfl
  have noElsif : ConditionalWord.condition? "ELSIF" (word ++ back) = none := by
    have differs : isKeyword "ELSIF" ((word ++ back).take 5) = false := by
      rw [isKeyword, List.take_append_of_le_length long, List.map_take, letters]
      exact beq_false_of_ne other.2
    rw [ConditionalWord.condition?, afterKeyword?]
    simp [differs]
  have noElse : isKeyword "ELSE" (word ++ back) = false := by
    apply beq_false_of_ne
    intro same
    have length := congrArg List.length same
    simp only [List.length_map, List.length_append] at length
    have four : "ELSE".toList.length = 4 := by decide
    omega
  have closes : isKeyword "END_IF" word = (keyword == "END_IF") := by
    rw [isKeyword, letters, Bool.eq_iff_iff, beq_iff_eq, beq_iff_eq, String.toList_inj]
  rw [ConditionalWord.read?, noIf, noElsif, noElse, single, closes]
  simp

theorem closings_of_closingWord (closes : IsClosingWord word)
    (letters : ∀ c ∈ word, isNameChar c = true)
    (single : withoutTerminator (word ++ back) = word) :
    (closings (word ++ back)).count true = 1 := by
  rcases closes with ⟨keyword, member, rfl⟩ | same
  · have capital : ∀ keyword ∈ closingKeywords,
        keyword.toList.map foldCase = keyword.toList ∧ keyword.toList.head? = some 'E' ∧
          5 ≤ keyword.toList.length ∧ keyword.toList.take 5 ≠ "ELSIF".toList := by
      decide +kernel
    obtain ⟨folds, starts, other⟩ := capital keyword member
    have once : ∀ keyword ∈ closingKeywords,
        [(ClosingWord.all.find? fun word => word.keyword.toList == keyword.toList).isSome,
          (if BlockWord.keywords.any fun block => keyword == "END_" ++ block then
            some BlockWord.closing else none) == some .closing,
          (if keyword = "END_IF" then some ConditionalWord.endIf else none) ==
            some .endIf].count true = 1 := by decide +kernel
    rw [closings, ClosingWord.read?, BlockWord.read?_closingText folds starts single,
      ConditionalWord.read?_closingText folds starts other single, single]
    exact once keyword member
  · have folds : word.map foldCase = "END_IF".toList := by
      rw [map_foldCase_of_name letters]
      exact sameLetters_iff.mp same
    have notOther : ClosingWord.read? (word ++ back) = none := by
      have others : ∀ closing ∈ ClosingWord.all,
          closing.keyword.toList.map foldCase ≠ "END_IF".toList := by decide +kernel
      rw [ClosingWord.read?, single, List.find?_eq_none]
      intro closing member isWord
      exact others closing member (by rw [beq_iff_eq.mp isWord, folds])
    rw [closings, notOther, BlockWord.read?_closingText folds (by decide) single,
      ConditionalWord.read?_closingText folds (by decide) (by decide) single]
    decide

theorem read?_else (same : sameLetters word "ELSE".toList = true)
    (letters : ∀ c ∈ word, isNameChar c = true) :
    ConditionalWord.read? word = some .otherwise := by
  have folds : word.map foldCase = "ELSE".toList := by
    rw [map_foldCase_of_name letters]
    exact sameLetters_iff.mp same
  have noIf : ConditionalWord.condition? "IF" word = none := by
    have none : afterKeyword? "IF" (word ++ []) = none :=
      notOpening folds (by decide) [] (by decide)
    rw [List.append_nil] at none
    rw [ConditionalWord.condition?, none]
    rfl
  have noElsif : ConditionalWord.condition? "ELSIF" word = none := by
    have differs : isKeyword "ELSIF" (word.take 5) = false := by
      rw [isKeyword, List.map_take, folds]
      decide
    rw [ConditionalWord.condition?, afterKeyword?]
    simp [differs]
  have isElse : isKeyword "ELSE" word = true := by
    rw [isKeyword, folds]
    decide
  rw [ConditionalWord.read?, noIf, noElsif, isElse]
  rfl

end Closing

section Sections

variable {back : List Char} {keyword : String}

theorem splitWhere_congr {cut other : Char → Bool} {s : List Char}
    (alike : ∀ c ∈ s, cut c = other c) : splitWhere cut s = splitWhere other s := by
  induction s with
  | nil => rfl
  | cons c s ih =>
    rw [splitWhere, splitWhere, alike c List.mem_cons_self,
      ih fun d member => alike d (List.mem_cons_of_mem c member)]

theorem keyword_ofKeyword (keyword : String) :
    (SectionHeader.ofKeyword keyword).keyword = keyword := by
  rw [SectionHeader.ofKeyword]
  cases isScope : Scope.ofKeyword? keyword with
  | none => rfl
  | some scope => exact Scope.ofKeyword?_eq_some isScope

theorem words_qualifiers (plain : ∀ c ∈ back, isSpacing c = true ∨ isNameChar c = true) :
    words back = asciiWords back := by
  have alike : ∀ c ∈ back, isBlank c = !isNameChar c := by
    intro c member
    rcases plain c member with isSpacing | isName
    · have blank := isBlank_of_isSpacing isSpacing
      rw [blank, notName_of_blank blank]
      rfl
    · rw [isBlank_of_name isName, isName]
      rfl
  rw [words, splitWhere_congr alike]
  rfl

theorem read?_section (member : keyword ∈ sectionKeywords)
    (trimmed : trim (keyword.toList ++ back) = keyword.toList ++ back)
    (apart : ∀ d ∈ back.head?, isNameChar d = false)
    (falls : Cut.aroundSection.FallsOnEnds [] back) :
    SectionHeader.read? (keyword.toList ++ back) = some (SectionHeader.ofKeyword keyword) := by
  obtain ⟨-, plain, qualifiers⟩ := falls
  obtain ⟨nonempty, letters⟩ := isWord_of_mem (List.mem_append_right _ member)
  have blankNext : ∀ d ∈ back.head?, isBlank d = true := by
    intro d first
    rcases plain d (List.mem_of_mem_head? first) with isSpacing | isName
    · exact isBlank_of_isSpacing isSpacing
    · rw [apart d first] at isName
      cases isName
  have split : words (keyword.toList ++ back) = keyword.toList :: asciiWords back := by
    have whole : words (keyword.toList ++ back) = words keyword.toList ++ words back :=
      runs_append blankNext
    have alone : words keyword.toList = [keyword.toList] :=
      runs_of_uncut nonempty fun c inWord => isBlank_of_name (letters c inWord)
    rw [whole, alone, words_qualifiers plain, List.singleton_append]
  have allQualifiers :
      ((asciiWords back).map String.ofList).all sectionQualifiers.contains = true := by
    rw [List.all_map, List.all_eq_true]
    intro word isWord
    obtain ⟨qualifier, isQualifier, rfl⟩ := qualifiers word isWord
    simpa using isQualifier
  rw [SectionHeader.read?_eq, split, List.map_cons, String.ofList_toList]
  simp [trimmed, member, allQualifiers]

end Sections

section Signs

variable {s : List Char}

theorem colon_of_assignment {assignment : Assignment}
    (read : Assignment.read? s = some assignment) : ':' ∈ s := by
  simp only [Assignment.read?, Option.bind_eq_bind, Option.bind_eq_some_iff] at read
  obtain ⟨behind, named, body, sign, -⟩ := read
  obtain ⟨part, whole, -⟩ := Assignment.afterAccesses_part behind
  have begins := literal_eq_some sign
  have colon : ':' ∈ trimStart (Assignment.afterAccesses behind) := by
    rw [begins]
    exact List.mem_append_left _ (by decide)
  have inBehind : ':' ∈ behind := by
    rw [whole]
    exact List.mem_append_right part ((trimStart_suffix _).subset colon)
  exact (isLocal_name.leaves named).subset inBehind

theorem noColon_of_cutAround {word back : List Char} (around : IsCutAround word)
    (falls : ∀ cut, Cut.ofWord? word = some cut → cut.FallsOnEnds [] back) : ':' ∉ back := by
  have spaces {spaces : List Char} (areSpaces : ∀ c ∈ spaces, isSpacing c = true) :
      ':' ∉ spaces := fun member => absurd (areSpaces ':' member) (by decide)
  rcases around with ⟨keyword, member, rfl⟩ | closes | isElse
  · obtain ⟨-, plain, -⟩ := falls _ (ofWord?_section member)
    intro member
    exact absurd (plain ':' member) (by decide)
  · obtain ⟨-, rfl | ⟨blank, areSpaces, rfl⟩⟩ := falls _ (ofWord?_closing closes)
    · simp
    · simpa using spaces areSpaces
  · obtain ⟨-, rfl⟩ := falls _ (ofWord?_else isElse)
    simp

end Signs

structure AgreesOnKeywords (text : List Char) : Prop where
  varSection : ∀ keyword ∈ sectionKeywords, leadingWord text = keyword.toList →
    ∃ header, SectionHeader.read? text = some header ∧ header.keyword = keyword
  closing : IsClosingWord (leadingWord text) → (closings text).count true = 1
  otherwise : sameLetters (leadingWord text) "ELSE".toList = true →
    ConditionalWord.read? text = some .otherwise
  -- No other word is taken for the keyword of a section or for a closing word.
  sectionWord : ∀ header, SectionHeader.read? text = some header →
    header.keyword ∈ sectionKeywords ∧ leadingWord text = header.keyword.toList
  closingWord : ∀ word, ClosingWord.read? text = some word →
    word.keyword ∈ closingKeywords ∧ leadingWord text = word.keyword.toList
  -- None of these words is left to the readers of declarations and assignments, or to none.
  recognised : IsCutAround (leadingWord text) →
    Declaration.read? text = none ∧ Assignment.read? text = none ∧
      ((Boundary.read? text).isSome = true ∨ BlockWord.read? text = some .closing ∨
        (ConditionalWord.read? text).isSome = true)

theorem sectionWord_of_read? {text : List Char} {header : SectionHeader}
    (read : SectionHeader.read? text = some header) :
    header.keyword ∈ sectionKeywords ∧ leadingWord text = header.keyword.toList := by
  rw [SectionHeader.read?_eq] at read
  split at read
  · cases read
  · rename_i keyword qualifiers isWords
    simp only [Option.ite_none_right_eq_some, Option.some.injEq, Bool.and_eq_true,
      beq_iff_eq, List.contains_iff_mem] at read
    obtain ⟨⟨⟨trimmed, member⟩, -⟩, rfl⟩ := read
    obtain ⟨rest, rfl, apart⟩ := words_append trimmed isWords
    rw [keyword_ofKeyword]
    exact ⟨member, leadingWord_append (isWord_of_mem (List.mem_append_right _ member)).2 apart⟩

theorem closingWord_of_read? {text : List Char} {word : ClosingWord}
    (read : ClosingWord.read? text = some word) :
    word.keyword ∈ closingKeywords ∧ leadingWord text = word.keyword.toList := by
  have isKeyword : ∀ word ∈ ClosingWord.all, word.keyword ∈ closingKeywords := by decide +kernel
  have member := isKeyword word (List.mem_of_find?_eq_some read)
  have found := List.find?_some read
  have same : word.keyword.toList = withoutTerminator text := beq_iff_eq.mp found
  obtain ⟨rest, whole, apart⟩ := withoutTerminator_append text
  have letters := (isWord_of_mem
    (List.mem_append_left _ (List.mem_append_right _ member))).2
  rw [← same] at whole
  exact ⟨member, by rw [whole, leadingWord_append letters apart]⟩

theorem ne_nil_of_cutAround {word : List Char} (around : IsCutAround word) : word ≠ [] := by
  have cut : Cut.ofWord? word ≠ none := by
    rcases around with ⟨keyword, member, rfl⟩ | closes | isElse
    · simp [ofWord?_section member]
    · simp [ofWord?_closing closes]
    · simp [ofWord?_else isElse]
  rintro rfl
  exact cut (by decide)

namespace IsAtomic

variable {text : List Char} (atomic : IsAtomic text)

include atomic

theorem exists_back (around : IsCutAround (leadingWord text)) :
    ∃ back, text = leadingWord text ++ back ∧ IsWordIn [] (leadingWord text) back ∧
      ∀ cut, Cut.ofWord? (leadingWord text) = some cut → cut.FallsOnEnds [] back := by
  obtain ⟨back, whole, isWord⟩ := isWordIn_leadingWord (ne_nil_of_cutAround around)
  exact ⟨back, whole, isWord, atomic.word [] _ back whole isWord⟩

theorem sectionHeader (trimmed : trim text = text) {keyword : String}
    (member : keyword ∈ sectionKeywords) (isKeyword : leadingWord text = keyword.toList) :
    SectionHeader.read? text = some (SectionHeader.ofKeyword keyword) := by
  obtain ⟨back, whole, isWord, falls⟩ := atomic.exists_back (.inl ⟨keyword, member, isKeyword⟩)
  rw [isKeyword] at whole falls
  rw [whole] at trimmed ⊢
  exact read?_section member trimmed isWord.ends (falls _ (ofWord?_section member))

theorem closesOnce (closes : IsClosingWord (leadingWord text)) :
    (closings text).count true = 1 := by
  obtain ⟨back, whole, isWord, falls⟩ := atomic.exists_back (.inr (.inl closes))
  have ending := (falls _ (ofWord?_closing closes)).2
  rw [whole]
  exact closings_of_closingWord closes isWord.letters
    (withoutTerminator_closing isWord.letters ending)

theorem otherwise (isElse : sameLetters (leadingWord text) "ELSE".toList = true) :
    ConditionalWord.read? text = some .otherwise := by
  obtain ⟨back, whole, isWord, falls⟩ := atomic.exists_back (.inr (.inr isElse))
  obtain ⟨-, rfl⟩ := falls _ (ofWord?_else isElse)
  rw [whole, List.append_nil]
  exact read?_else isElse isWord.letters

theorem noColon (around : IsCutAround (leadingWord text)) : ':' ∉ text := by
  obtain ⟨back, whole, isWord, falls⟩ := atomic.exists_back around
  rw [whole, List.mem_append, not_or]
  refine ⟨fun member => ?_, noColon_of_cutAround around falls⟩
  exact absurd (isWord.letters ':' member) (by decide)

theorem recognised (trimmed : trim text = text) (around : IsCutAround (leadingWord text)) :
    (Boundary.read? text).isSome = true ∨ BlockWord.read? text = some .closing ∨
      (ConditionalWord.read? text).isSome = true := by
  rcases around with ⟨keyword, member, isKeyword⟩ | closes | isElse
  · left
    simp [Boundary.read?, atomic.sectionHeader trimmed member isKeyword]
  · have found : true ∈ closings text :=
      List.count_pos_iff.mp (by rw [atomic.closesOnce closes]; omega)
    simp only [closings, List.mem_cons, List.not_mem_nil, or_false] at found
    rcases found with isWord | isBlock | isConditional
    · obtain ⟨word, read⟩ := Option.isSome_iff_exists.mp isWord.symm
      left
      simp [Boundary.read?, read]
    · exact .inr (.inl (beq_iff_eq.mp isBlock.symm))
    · right
      right
      rw [beq_iff_eq.mp isConditional.symm]
      rfl
  · right
    right
    rw [atomic.otherwise isElse]
    rfl

theorem agreesOnKeywords (trimmed : trim text = text) : AgreesOnKeywords text where
  varSection keyword member isKeyword :=
    ⟨_, atomic.sectionHeader trimmed member isKeyword, keyword_ofKeyword keyword⟩
  closing := atomic.closesOnce
  otherwise := atomic.otherwise
  sectionWord _ := sectionWord_of_read?
  closingWord _ := closingWord_of_read?
  recognised around :=
    ⟨Option.eq_none_iff_forall_not_mem.mpr fun _ read =>
        atomic.noColon around (colon_of_declaration read),
      Option.eq_none_iff_forall_not_mem.mpr fun _ read =>
        atomic.noColon around (colon_of_assignment read),
      atomic.recognised trimmed around⟩

end IsAtomic

theorem fragments_agreeOnKeywords (code : List Char) :
    ∀ fragment ∈ fragments code, AgreesOnKeywords fragment.text := by
  intro fragment member
  have alone := fragments_of_single (map_text_fragments_text member)
  obtain ⟨trimmed, -, -, fits⟩ := (fragments_eq_self_iff fragment.text).mp alone
  exact (allFit_lexemes_iff.mp fits).agreesOnKeywords trimmed

theorem fragments_agreeOnKeywords_closing :
    ⟨"End_If ;".toList, 7, 15⟩ ∈ fragments "x := 1;End_If ; VAR RETAIN".toList ∧
      AgreesOnKeywords "End_If ;".toList :=
  have member : ⟨"End_If ;".toList, 7, 15⟩ ∈ fragments "x := 1;End_If ; VAR RETAIN".toList := by
    decide +kernel
  ⟨member, fragments_agreeOnKeywords _ _ member⟩

end StructuredText
