import Mathlib.Data.List.TakeWhile
import StructuredText.Fragment
import StructuredText.Proofs.PlainText

set_option autoImplicit false

namespace StructuredText

theorem foldr_consFirst_nil (begun : List Char) :
    begun.foldr consFirst [] = if begun = [] then [] else [begun] := by
  induction begun with
  | nil => rfl
  | cons c begun ih =>
    rw [List.foldr_cons, ih]
    cases begun <;> rfl

theorem foldr_consFirst_cons (begun piece : List Char) (pieces : List (List Char)) :
    begun.foldr consFirst (piece :: pieces) = (begun ++ piece) :: pieces := by
  induction begun with
  | nil => rfl
  | cons c begun ih =>
    rw [List.foldr_cons, ih]
    rfl

section Runs

variable {cut : Char → Bool}

theorem splitWhere_append_cons {c : Char} (isCut : cut c = true) (s t : List Char) :
    splitWhere cut (s ++ c :: t) = splitWhere cut s ++ splitWhere cut t := by
  induction s with
  | nil => simp [splitWhere, isCut]
  | cons d s ih =>
    by_cases cutsHere : cut d = true
    · simp [splitWhere, cutsHere, ih]
    · obtain ⟨piece, pieces, shape⟩ := List.exists_cons_of_ne_nil (splitWhere_ne_nil cut s)
      simp [splitWhere, cutsHere, ih, shape, consFirst]

theorem splitWhere_of_uncut {s : List Char} (uncut : ∀ c ∈ s, cut c = false) :
    splitWhere cut s = [s] := by
  induction s with
  | nil => rfl
  | cons c s ih =>
    rw [splitWhere, ih fun d member => uncut d (List.mem_cons_of_mem c member)]
    simp [uncut c List.mem_cons_self, consFirst]

theorem runs_cons {c : Char} (isCut : cut c = true) (s : List Char) :
    runs cut (c :: s) = runs cut s := by
  simp [runs, splitWhere, isCut]

theorem runs_append {s t : List Char} (apart : ∀ d ∈ t.head?, cut d = true) :
    runs cut (s ++ t) = runs cut s ++ runs cut t := by
  cases t with
  | nil => simp [runs, splitWhere]
  | cons d t =>
    have isCut : cut d = true := apart d rfl
    rw [runs_cons isCut, runs, splitWhere_append_cons isCut, List.filter_append]
    rfl

theorem runs_of_uncut {s : List Char} (nonempty : s ≠ []) (uncut : ∀ c ∈ s, cut c = false) :
    runs cut s = [s] := by
  rw [runs, splitWhere_of_uncut uncut]
  simp [nonempty]

end Runs

theorem asciiWords_cons {c : Char} (apart : isNameChar c = false) (s : List Char) :
    asciiWords (c :: s) = asciiWords s :=
  runs_cons (by simp [apart]) s

theorem asciiWords_append {s t : List Char} (apart : ∀ d ∈ t.head?, isNameChar d = false) :
    asciiWords (s ++ t) = asciiWords s ++ asciiWords t :=
  runs_append (by simpa using apart)

theorem asciiWords_of_name {word : List Char} (nonempty : word ≠ [])
    (isName : ∀ c ∈ word, isNameChar c = true) : asciiWords word = [word] :=
  runs_of_uncut nonempty (by simpa using isName)

theorem semicolon_apart : ∀ d ∈ [';'].head?, isNameChar d = false := by
  have notName : isNameChar ';' = false := by decide
  simpa using notName

theorem span_append {p : Char → Bool} {s t : List Char} (stops : ∀ d ∈ t.head?, p d = false) :
    (s ++ t).takeWhile p = s.takeWhile p ∧ (s ++ t).dropWhile p = s.dropWhile p ++ t := by
  induction s with
  | nil =>
    cases t with
    | nil => exact ⟨rfl, rfl⟩
    | cons d t => simp [stops d rfl]
  | cons c s ih =>
    by_cases taken : p c = true
    · simp [taken, ih]
    · simp [taken]

theorem quoteClose?_of_name {c : Char} (isName : isNameChar c = true) : quoteClose? c = none := by
  have notQuote : c ≠ '\x7b' ∧ c ≠ '\x27' ∧ c ≠ '\x22' := by
    refine ⟨?_, ?_, ?_⟩ <;> rintro rfl <;> exact absurd isName (by decide)
  simp [quoteClose?, stringClose?, notQuote]

namespace Lexeme

def word? : Lexeme → Option (List Char)
  | word text => some text
  | _ => none

theorem next_of_name {c : Char} (isName : isNameChar c = true) (s : List Char) :
    next c s = (word (c :: s.takeWhile isNameChar), s.dropWhile isNameChar) := by
  have notSemicolon : c ≠ ';' := by
    rintro rfl
    exact absurd isName (by decide)
  simp [next, quoteClose?_of_name isName, notSemicolon, isName]

theorem next_of_other {c : Char} (unquoted : quoteClose? c = none) (notSemicolon : c ≠ ';')
    (notName : isNameChar c = false) (s : List Char) : next c s = (other c, s) := by
  simp [next, unquoted, notSemicolon, notName]

theorem mem_of_mem_next {c d : Char} {s : List Char} (member : d ∈ (next c s).2) : d ∈ c :: s := by
  rw [← next_text c s]
  exact List.mem_append_right _ member

theorem next_append {c : Char} {s t : List Char} (unquoted : quoteClose? c = none)
    (apart : ∀ d ∈ t.head?, isNameChar d = false) :
    next c (s ++ t) = ((next c s).1, (next c s).2 ++ t) := by
  by_cases isName : isNameChar c = true
  · obtain ⟨taken, dropped⟩ := span_append (s := s) apart
    rw [next_of_name isName, next_of_name isName, taken, dropped]
  · by_cases semicolon : c = ';'
    · subst semicolon
      rfl
    · simp only [Bool.not_eq_true] at isName
      rw [next_of_other unquoted semicolon isName, next_of_other unquoted semicolon isName]

end Lexeme

theorem lexemes_append {s t : List Char} (unquoted : ∀ c ∈ s, quoteClose? c = none)
    (apart : ∀ d ∈ t.head?, isNameChar d = false) : lexemes (s ++ t) = lexemes s ++ lexemes t := by
  fun_induction lexemes s with
  | case1 => rfl
  | case2 c s ih =>
    have rest : ∀ d ∈ (Lexeme.next c s).2, quoteClose? d = none :=
      fun d member => unquoted d (Lexeme.mem_of_mem_next member)
    rw [List.cons_append, lexemes, Lexeme.next_append (unquoted c List.mem_cons_self) apart,
      ih rest, List.cons_append]

theorem Lexeme.asciiWords_next {c : Char} (unquoted : quoteClose? c = none) (s : List Char) :
    asciiWords (c :: s) = (next c s).1.word?.toList ++ asciiWords (next c s).2 := by
  by_cases isName : isNameChar c = true
  · have shape : c :: s = (c :: s.takeWhile isNameChar) ++ s.dropWhile isNameChar := by simp
    have stops := stops_dropWhile isNameChar s
    have isWord : ∀ d ∈ c :: s.takeWhile isNameChar, isNameChar d = true := by
      intro d member
      rcases List.mem_cons.mp member with rfl | member
      · exact isName
      · exact List.all_eq_true.mp List.all_takeWhile d member
    rw [next_of_name isName, shape, asciiWords_append stops,
      asciiWords_of_name (by simp) isWord]
    rfl
  · simp only [Bool.not_eq_true] at isName
    rw [asciiWords_cons isName]
    by_cases semicolon : c = ';'
    · subst semicolon
      rfl
    · rw [next_of_other unquoted semicolon isName]
      rfl

theorem filterMap_word?_lexemes {s : List Char} (unquoted : ∀ c ∈ s, quoteClose? c = none) :
    (lexemes s).filterMap Lexeme.word? = asciiWords s := by
  fun_induction lexemes s with
  | case1 => rfl
  | case2 c s ih =>
    have rest : ∀ d ∈ (Lexeme.next c s).2, quoteClose? d = none :=
      fun d member => unquoted d (Lexeme.mem_of_mem_next member)
    rw [Lexeme.asciiWords_next (unquoted c List.mem_cons_self), ← ih rest, List.filterMap_cons]
    cases (Lexeme.next c s).1.word? <;> rfl

def Lexeme.IsUncut : Lexeme → Prop
  | word text => Cut.ofWord? text = none
  | quoted _ | other _ => True
  | semicolon => False

instance : (l : Lexeme) → Decidable l.IsUncut
  | .word text => inferInstanceAs (Decidable (Cut.ofWord? text = none))
  | .quoted _ | .other _ => isTrue trivial
  | .semicolon => isFalse id

structure Uncut (s : List Char) : Prop where
  characters : ∀ c ∈ s, quoteClose? c = none ∧ c ≠ ';'
  words : ∀ word ∈ asciiWords s, Cut.ofWord? word = none

theorem Uncut.isUncut_of_mem {s : List Char} (uncut : Uncut s) :
    ∀ l ∈ lexemes s, l.IsUncut := by
  have unquoted : ∀ c ∈ s, quoteClose? c = none := fun c member => (uncut.characters c member).1
  have sort : ∀ l ∈ lexemes s, l.IsUncut ∨ ∃ word, l.word? = some word := by
    have characters := uncut.characters
    clear uncut unquoted
    fun_induction lexemes s with
    | case1 => simp
    | case2 c s ih =>
      intro l member
      rcases List.mem_cons.mp member with rfl | member
      · obtain ⟨unquoted, semicolon⟩ := characters c List.mem_cons_self
        by_cases isName : isNameChar c = true
        · rw [Lexeme.next_of_name isName]
          exact .inr ⟨_, rfl⟩
        · simp only [Bool.not_eq_true] at isName
          rw [Lexeme.next_of_other unquoted semicolon isName]
          exact .inl trivial
      · exact ih (fun d later => characters d (Lexeme.mem_of_mem_next later)) l member
  intro l member
  rcases sort l member with isUncut | ⟨word, isWord⟩
  · exact isUncut
  · have found : word ∈ asciiWords s := by
      rw [← filterMap_word?_lexemes unquoted]
      exact List.mem_filterMap.mpr ⟨l, member, isWord⟩
    cases l with
    | word text =>
      cases isWord
      exact uncut.words _ found
    | _ => cases isWord

theorem PlainText.uncut {s : List Char} (plain : PlainText s) : Uncut s := by
  refine ⟨?_, plain.words⟩
  intro c member
  have allowed := plain.characters c member
  simp only [List.mem_cons, List.not_mem_nil, or_false, not_or] at allowed
  exact ⟨(plain.bare.characters c member).2, allowed.2.2.2.2⟩

theorem pieces_append {uncut : List Lexeme} (isUncut : ∀ l ∈ uncut, l.IsUncut) (ls : List Lexeme) :
    pieces (uncut ++ ls) = (uncut ++ (pieces ls).1, (pieces ls).2) := by
  induction uncut with
  | nil => rfl
  | cons l uncut ih =>
    have later := ih fun other member => isUncut other (List.mem_cons_of_mem l member)
    have here := isUncut l List.mem_cons_self
    rw [List.cons_append]
    cases l with
    | word text =>
      have kept : Cut.ofWord? text = none := here
      rw [pieces]
      simp [kept, later]
    | quoted text | other c =>
      rw [pieces, later]
      · rfl
      · simp
      · simp
    | semicolon => exact absurd here id

theorem pieces_around {w : List Char} {cut : Cut} (isCut : Cut.ofWord? w = some cut)
    (notBefore : cut ≠ .before) (notAfter : cut ≠ .after) (ls : List Lexeme) :
    pieces (.word w :: ls) =
      ([], (.word w :: (takeAttached cut ls).1) ::
        (pieces (takeAttached cut ls).2).1 :: (pieces (takeAttached cut ls).2).2) := by
  rw [pieces]
  cases cut with
  | before => exact absurd rfl notBefore
  | after => exact absurd rfl notAfter
  | aroundSection | aroundClosing | around => simp only [isCut]

def pieceTexts (code : List Char) : List (List Char) :=
  ((pieces (lexemes code)).1 :: (pieces (lexemes code)).2).map fun piece =>
    piece.flatMap Lexeme.text

def isFragment (text : List Char) : Bool :=
  !text.isEmpty && text != [';']

theorem map_text_fragmentsFrom (offset : Nat) (texts : List (List Char)) :
    (fragmentsFrom offset texts).map Fragment.text = (texts.map trim).filter isFragment := by
  induction texts generalizing offset with
  | nil => rfl
  | cons text texts ih =>
    rw [fragmentsFrom, List.map_cons, List.filter_cons]
    by_cases skipped : trim text = [] ∨ trim text = [';']
    · have noFragment : isFragment (trim text) = false := by
        rcases skipped with blank | semicolon
        · simp [isFragment, blank]
        · simp [isFragment, semicolon]
      simp [skipped, noFragment, ih]
    · have kept : isFragment (trim text) = true := by simpa [isFragment] using skipped
      simp [skipped, kept, ih]

theorem map_text_fragments (code : List Char) :
    (fragments code).map Fragment.text = ((pieceTexts code).map trim).filter isFragment :=
  map_text_fragmentsFrom 0 (pieceTexts code)

theorem lexemes_word_append {word : List Char} (nonempty : word ≠ [])
    (isName : ∀ c ∈ word, isNameChar c = true) {t : List Char}
    (apart : ∀ d ∈ t.head?, isNameChar d = false) :
    lexemes (word ++ t) = .word word :: lexemes t := by
  rw [lexemes_append (fun c member => quoteClose?_of_name (isName c member)) apart]
  obtain ⟨c, rest, rfl⟩ := List.exists_cons_of_ne_nil nonempty
  have later : ∀ d ∈ rest, isNameChar d = true :=
    fun d member => isName d (List.mem_cons_of_mem c member)
  rw [lexemes, Lexeme.next_of_name (isName c List.mem_cons_self),
    List.takeWhile_eq_self_iff.mpr later, List.dropWhile_eq_nil_iff.mpr later, lexemes]
  rfl

theorem quoteClose?_of_blank {c : Char} (blank : isBlank c = true) : quoteClose? c = none := by
  have visible : isBlank '\x7b' = false ∧ isBlank '\x27' = false ∧ isBlank '\x22' = false := by
    decide
  have plain {d : Char} (isVisible : isBlank d = false) : c ≠ d := by
    rintro rfl
    rw [blank] at isVisible
    cases isVisible
  simp [quoteClose?, stringClose?, plain visible.1, plain visible.2.1, plain visible.2.2]

theorem Lexeme.next_of_blank {c : Char} (blank : isBlank c = true) (s : List Char) :
    next c s = (other c, s) := by
  have noSemicolon : c ≠ ';' := by
    rintro rfl
    cases blank
  exact next_of_other (quoteClose?_of_blank blank) noSemicolon (notName_of_blank blank) s

section Blank

variable {blank : List Char} (isBlank : ∀ c ∈ blank, isBlank c = true)

include isBlank

theorem lexemes_blank_append (s : List Char) :
    lexemes (blank ++ s) = blank.map Lexeme.other ++ lexemes s := by
  induction blank with
  | nil => rfl
  | cons c blank ih =>
    rw [List.cons_append, lexemes, Lexeme.next_of_blank (isBlank c List.mem_cons_self),
      ih fun d member => isBlank d (List.mem_cons_of_mem c member)]
    rfl

theorem map_text_fragments_blank_append (s : List Char) :
    (fragments (blank ++ s)).map Fragment.text = (fragments s).map Fragment.text := by
  have isUncut : ∀ l ∈ blank.map Lexeme.other, l.IsUncut := by
    intro l member
    obtain ⟨c, -, rfl⟩ := List.mem_map.mp member
    trivial
  have texts : (blank.map Lexeme.other).flatMap Lexeme.text = blank := by
    simp [List.flatMap_map, Lexeme.text]
  have trims (text : List Char) : trim (blank ++ text) = trim text := trim_blank_append isBlank text
  rw [map_text_fragments, map_text_fragments]
  simp only [pieceTexts, lexemes_blank_append isBlank, pieces_append isUncut, List.map_cons,
    List.flatMap_append, texts, trims]

end Blank

end StructuredText
