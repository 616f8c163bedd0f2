import StructuredText.Document.State
import StructuredText.Proofs.InlineText
import StructuredText.Render

set_option autoImplicit false

namespace StructuredText

structure PlainTarget (s : List Char) : Prop extends PlainText s where
  isTarget : (Reader.name s).map Assignment.afterAccesses = some []
  notBlock : ∀ keyword ∈ BlockWord.keywords, startsWithWord keyword s = false

instance (s : List Char) : Decidable (PlainTarget s) :=
  decidable_of_iff
    (PlainText s ∧ (Reader.name s).map Assignment.afterAccesses = some [] ∧
      ∀ keyword ∈ BlockWord.keywords, startsWithWord keyword s = false)
    ⟨fun ⟨plain, isTarget, notBlock⟩ => ⟨plain, isTarget, notBlock⟩,
      fun plain => ⟨plain.toPlainText, plain.isTarget, plain.notBlock⟩⟩

def CodeLine.IsPlain : CodeLine → Prop
  | assignment target expression => PlainTarget target.toList ∧ PlainText expression.toList
  | ifThen condition | elsif condition => PlainText condition.toList
  | otherwise | endIf => True

def CodeLine.IsInline : CodeLine → Prop
  | assignment target expression => PlainTarget target.toList ∧ InlineText expression.toList
  | ifThen condition | elsif condition => InlineText condition.toList
  | otherwise | endIf => True

instance : (code : CodeLine) → Decidable code.IsInline
  | .assignment target expression =>
    inferInstanceAs (Decidable (PlainTarget target.toList ∧ InlineText expression.toList))
  | .ifThen condition | .elsif condition =>
    inferInstanceAs (Decidable (InlineText condition.toList))
  | .otherwise | .endIf => isTrue trivial

theorem CodeLine.IsPlain.inline {code : CodeLine} (plain : code.IsPlain) : code.IsInline := by
  cases code with
  | assignment target expression => exact ⟨plain.1, plain.2.inline⟩
  | ifThen condition | elsif condition => exact PlainText.inline plain
  | otherwise | endIf => trivial

def conditionLine (keyword condition : List Char) : List Char :=
  keyword ++ ' ' :: (condition ++ ' ' :: "THEN".toList)

def assignmentLine (target expression : List Char) : List Char :=
  target ++ ' ' :: ':' :: '=' :: ' ' :: (expression ++ [';'])

namespace CodeLine

@[simp] theorem isPlain_assignment (target expression : String) :
    (assignment target expression).IsPlain ↔
      PlainTarget target.toList ∧ PlainText expression.toList := Iff.rfl

@[simp] theorem isPlain_ifThen (condition : String) :
    (ifThen condition).IsPlain ↔ PlainText condition.toList := Iff.rfl

@[simp] theorem isPlain_elsif (condition : String) :
    (elsif condition).IsPlain ↔ PlainText condition.toList := Iff.rfl

@[simp] theorem isPlain_otherwise : otherwise.IsPlain := trivial

@[simp] theorem isPlain_endIf : endIf.IsPlain := trivial

theorem toList_assignment (target expression : String) :
    (assignment target expression).text.toList =
      assignmentLine target.toList expression.toList := by
  simp [text, assignmentLine]

theorem toList_ifThen (condition : String) :
    (ifThen condition).text.toList = conditionLine "IF".toList condition.toList := by
  simp [text, conditionLine]

theorem toList_elsif (condition : String) :
    (elsif condition).text.toList = conditionLine "ELSIF".toList condition.toList := by
  simp [text, conditionLine]

end CodeLine

def isBareChar (c : Char) : Bool :=
  c != '\n' && (quoteClose? c).isNone && c != '/' && c != '('

theorem bare_of_all {s : List Char} (safe : s.all isBareChar = true) : Bare s := by
  induction s with
  | nil => exact .nil
  | cons c s ih =>
    rw [List.all_cons, Bool.and_eq_true] at safe
    have here : ((c ≠ '\n' ∧ quoteClose? c = none) ∧ c ≠ '/') ∧ c ≠ '(' := by
      simpa [isBareChar] using safe.1
    exact (ih safe.2).cons here.1.1 ⟨here.1.2, here.2⟩

theorem settled_of_all {s : List Char} (safe : s.all isBareChar = true) : Settled s :=
  (bare_of_all safe).settled

theorem settled_conditionLine {keyword condition : List Char} (inline : InlineText condition)
    (safe : keyword.all isBareChar = true) : Settled (conditionLine keyword condition) := by
  have ending : Settled (' ' :: "THEN".toList) := settled_of_all (by decide)
  have space : Settled [' '] := settled_of_all (by decide)
  have inner : Settled (' ' :: (condition ++ ' ' :: "THEN".toList)) :=
    space.append (inline.settled.append_cons ending (by decide)) (by simp [Apart])
  exact (settled_of_all safe).append_cons inner (by decide)

theorem settled_assignmentLine {target expression : List Char} (isTarget : PlainTarget target)
    (inline : InlineText expression) : Settled (assignmentLine target expression) := by
  have ending : Settled [';'] := settled_of_all (by decide)
  have sign : Settled [' ', ':', '=', ' '] := settled_of_all (by decide)
  have value : Settled ([' ', ':', '=', ' '] ++ (expression ++ [';'])) :=
    sign.append (inline.settled.append_cons ending (by decide)) (by simp [Apart])
  exact isTarget.bare.settled.append_cons value (by decide)

theorem CodeLine.settled_text {code : CodeLine} (inline : code.IsInline) :
    Settled code.text.toList := by
  cases code with
  | assignment target expression =>
    rw [toList_assignment]
    exact settled_assignmentLine inline.1 inline.2
  | ifThen condition =>
    rw [toList_ifThen]
    exact settled_conditionLine inline (by decide)
  | elsif condition =>
    rw [toList_elsif]
    exact settled_conditionLine inline (by decide)
  | otherwise => exact settled_of_all (by decide)
  | endIf => exact settled_of_all (by decide)

theorem CodeLine.oneLine_text {code : CodeLine} (inline : code.IsInline) :
    '\n' ∉ code.text.toList := by
  cases code with
  | assignment target expression =>
    simp [toList_assignment, assignmentLine, inline.1.oneLine, inline.2.oneLine]
  | ifThen condition | elsif condition =>
    have oneLine : '\n' ∉ condition.toList := InlineText.oneLine inline
    simp [text, oneLine]
  | otherwise | endIf => decide

theorem PlainText.last_visible {s : List Char} (plain : PlainText s) :
    ∀ c ∈ s.getLast?, c ≠ ';' ∧ isBlank c = false := by
  intro c last
  have allowed := plain.characters c (List.mem_of_getLast? last)
  refine ⟨?_, plain.last_not_blank c last⟩
  rintro rfl
  exact allowed (by decide)

theorem Uncut.cons {c : Char} {s : List Char} (uncut : Uncut s)
    (safe : quoteClose? c = none ∧ c ≠ ';') (apart : isNameChar c = false) : Uncut (c :: s) := by
  refine ⟨?_, ?_⟩
  · intro d member
    rcases List.mem_cons.mp member with rfl | member
    · exact safe
    · exact uncut.characters d member
  · rw [asciiWords_cons apart]
    exact uncut.words

theorem Uncut.append {s t : List Char} (before : Uncut s) (after : Uncut t)
    (apart : ∀ d ∈ t.head?, isNameChar d = false) : Uncut (s ++ t) := by
  refine ⟨?_, ?_⟩
  · intro d member
    rcases List.mem_append.mp member with member | member
    · exact before.characters d member
    · exact after.characters d member
  · rw [asciiWords_append apart]
    intro word member
    rcases List.mem_append.mp member with member | member
    · exact before.words word member
    · exact after.words word member

@[simp] theorem trim_nil : trim [] = [] := rfl

@[simp] theorem isFragment_nil : isFragment [] = false := rfl

theorem fragments_terminated {s : List Char} (piece : OnePiece s) (nonempty : s ≠ [])
    (first : ∀ c ∈ s.head?, isBlank c = false) :
    (fragments (s ++ [';'])).map Fragment.text = [s ++ [';']] := by
  have ending : lexemes [';'] = [.semicolon] := by
    simp [lexemes, Lexeme.next, quoteClose?, stringClose?]
  have cut : pieceTexts (s ++ [';']) = [s ++ [';'], []] := by
    rw [pieceTexts, lexemes_append_of_closed piece.closed fun _ _ _ => semicolon_apart, ending,
      pieces_append piece.uncut]
    simp [pieces, flatMap_text_lexemes, Lexeme.text]
  have trimmed : trim (s ++ [';']) = s ++ [';'] := by
    refine trim_of_ends ?_ ?_
    · rwa [List.head?_append_of_ne_nil _ nonempty]
    · simp [show isBlank ';' = false by decide]
  have kept : isFragment (s ++ [';']) = true := by
    simp [isFragment, nonempty]
  simp [map_text_fragments, cut, trimmed, kept]

theorem onePiece_assignment {target expression : List Char} (isTarget : PlainTarget target)
    (inline : InlineText expression) :
    OnePiece (target ++ ' ' :: ':' :: '=' :: ' ' :: expression) := by
  have sign : OnePiece (' ' :: ':' :: '=' :: ' ' :: expression) := by
    refine .cons (.cons (.cons (.cons inline.toOnePiece ?_ ?_) ?_ ?_) ?_ ?_) ?_ ?_ <;> decide
  exact isTarget.uncut.onePiece.append sign (by simp; decide)

theorem assignmentLine_eq (target expression : List Char) :
    assignmentLine target expression =
      (target ++ ' ' :: ':' :: '=' :: ' ' :: expression) ++ [';'] := by
  simp [assignmentLine]

theorem fragments_assignmentLine {target expression : List Char} (isTarget : PlainTarget target)
    (inline : InlineText expression) :
    (fragments (assignmentLine target expression)).map Fragment.text =
      [assignmentLine target expression] := by
  rw [assignmentLine_eq]
  refine fragments_terminated (onePiece_assignment isTarget inline) (by simp) ?_
  rw [List.head?_append_of_ne_nil _ isTarget.nonempty]
  exact isTarget.head_not_blank

theorem last_conditionLine (keyword condition : List Char) :
    (conditionLine keyword condition).getLast? = some 'N' := by
  have split : conditionLine keyword condition =
      (keyword ++ ' ' :: (condition ++ " THE".toList)) ++ ['N'] := by
    simp [conditionLine]
  rw [split, List.getLast?_concat]

theorem isName_if : ∀ c ∈ "IF".toList, isNameChar c = true :=
  List.all_eq_true.mp (by decide)

theorem isName_elsif : ∀ c ∈ "ELSIF".toList, isNameChar c = true :=
  List.all_eq_true.mp (by decide)

theorem fragments_conditionLine {keyword condition : List Char} (nonempty : keyword ≠ [])
    (isName : ∀ c ∈ keyword, isNameChar c = true) (cut : Cut.ofWord? keyword = some .before)
    (inline : InlineText condition) :
    (fragments (conditionLine keyword condition)).map Fragment.text =
      [conditionLine keyword condition] := by
  have inner : OnePiece (' ' :: condition) := inline.toOnePiece.cons (by decide) (by decide)
  have ending : lexemes (' ' :: "THEN".toList) = [.other ' ', .word "THEN".toList] := by
    decide +kernel
  have afterThen : pieces [.other ' ', .word "THEN".toList] =
      ([.other ' ', .word "THEN".toList], [[]]) := by
    decide +kernel
  have lexed : lexemes (conditionLine keyword condition) =
      .word keyword :: (lexemes (' ' :: condition) ++ [.other ' ', .word "THEN".toList]) := by
    rw [conditionLine, lexemes_word_append nonempty isName (by simp; decide), ← List.cons_append,
      lexemes_append_of_closed inner.closed fun _ _ _ => by simp; decide, ending]
  have texts : pieceTexts (conditionLine keyword condition) =
      [[], conditionLine keyword condition, []] := by
    rw [pieceTexts, lexed, pieces]
    simp only [cut, pieces_append inner.uncut, afterThen]
    simp [flatMap_text_lexemes, Lexeme.text, conditionLine]
  have trimmed : trim (conditionLine keyword condition) = conditionLine keyword condition := by
    refine trim_of_ends ?_ ?_
    · rw [conditionLine, List.head?_append_of_ne_nil _ nonempty]
      exact fun c first => isBlank_of_name (isName c (List.mem_of_mem_head? first))
    · simp [last_conditionLine, show isBlank 'N' = false by decide]
  have kept : isFragment (conditionLine keyword condition) = true := by
    obtain ⟨c, rest, rfl⟩ := List.exists_cons_of_ne_nil nonempty
    simp [isFragment, conditionLine]
  simp [map_text_fragments, texts, trimmed, kept]

theorem CodeLine.fragments_text {code : CodeLine} (inline : code.IsInline) :
    (fragments code.text.toList).map Fragment.text = [code.text.toList] := by
  cases code with
  | assignment target expression =>
    rw [toList_assignment]
    exact fragments_assignmentLine inline.1 inline.2
  | ifThen condition =>
    rw [toList_ifThen]
    exact fragments_conditionLine (by decide) isName_if (by decide) inline
  | elsif condition =>
    rw [toList_elsif]
    exact fragments_conditionLine (by decide) isName_elsif (by decide) inline
  | otherwise => decide +kernel
  | endIf => decide +kernel

end StructuredText
