import StructuredText.Grammar.Assignment
import StructuredText.Grammar.Conditional
import StructuredText.Proofs.RecasedReaders

set_option autoImplicit false

namespace StructuredText

section Keywords

theorem isKeyword_capitals (keyword : String) (s : List Char) :
    isKeyword keyword (capitals s) = isKeyword keyword s := by
  have folded : (capitals s).map foldCase = s.map foldCase := by
    rw [capitals, List.map_map]
    exact congrArg (s.map ·) (funext foldCase_toUpper)
  rw [isKeyword, folded, isKeyword]

theorem capitals_take (count : Nat) (s : List Char) :
    (capitals s).take count = capitals (s.take count) :=
  List.map_take.symm

theorem capitals_drop (count : Nat) (s : List Char) :
    (capitals s).drop count = capitals (s.drop count) :=
  List.map_drop.symm

theorem afterKeyword?_capitals (keyword : String) (s : List Char) :
    afterKeyword? keyword (capitals s) = (afterKeyword? keyword s).map capitals := by
  simp only [afterKeyword?, capitals_take, capitals_drop, isKeyword_capitals]
  split <;> rfl

theorem beforeKeyword?_capitals (keyword : String) (s : List Char) :
    beforeKeyword? keyword (capitals s) = (beforeKeyword? keyword s).map capitals := by
  simp only [beforeKeyword?, capitals_take, capitals_drop, isKeyword_capitals, length_capitals]
  split <;> rfl

theorem startsWithWord_capitals (keyword : String) (s : List Char) :
    startsWithWord keyword (capitals s) = startsWithWord keyword s := by
  rw [startsWithWord, startsWithWord, afterKeyword?_capitals]
  cases afterKeyword? keyword s with
  | none => rfl
  | some rest => cases rest <;> simp

def ConditionalWord.capitalized : ConditionalWord → ConditionalWord
  | ifThen condition => ifThen (inCapitals condition)
  | elsif condition => elsif (inCapitals condition)
  | otherwise => otherwise
  | endIf => endIf

namespace ConditionalWord

theorem condition?_capitals (keyword : String) (s : List Char) :
    condition? keyword (capitals s) = (condition? keyword s).map inCapitals := by
  simp only [condition?, afterKeyword?_capitals, Option.bind_eq_bind]
  cases afterKeyword? keyword s with
  | none => rfl
  | some rest =>
    simp only [Option.map_some, Option.bind_some, beforeKeyword?_capitals]
    cases beforeKeyword? "THEN" rest with
    | none => rfl
    | some condition =>
      simp only [Option.map_some, Option.bind_some, capitals, List.head?_map, List.getLast?_map]
      cases condition.head? with
      | none => rfl
      | some first =>
        cases condition.getLast? with
        | none => rfl
        | some last =>
          simp only [Option.map_some, Option.bind_some, isWordChar_toUpper]
          split
          · rfl
          · rw [← capitals, trim_capitals, Option.map_some, inCapitals_ofList]

theorem read?_capitals (s : List Char) : read? (capitals s) = (read? s).map capitalized := by
  simp only [read?, condition?_capitals, isKeyword_capitals, withoutTerminator_capitals]
  cases condition? "IF" s with
  | some condition => rfl
  | none =>
    cases condition? "ELSIF" s with
    | some condition => rfl
    | none =>
      simp only [Option.map_none, Option.none_or]
      split
      · rfl
      · split <;> rfl

end ConditionalWord

theorem openCondition?_capitals (s : List Char) :
    openCondition? (capitals s) = openCondition? s := by
  have twice (s : List Char) : (capitals s).map Char.toUpper = s.map Char.toUpper := by
    rw [capitals, List.map_map]
    exact congrArg (s.map ·) (funext toUpper_toUpper)
  simp only [openCondition?, startsWithWord_capitals, capitals_take, twice]

theorem BlockWord.read?_capitals (s : List Char) : read? (capitals s) = read? s := by
  simp only [read?, startsWithWord_capitals, withoutTerminator_capitals, isKeyword_capitals]

end Keywords

section Expressions

theorem bracketBalance_capitals {literalEnd : Option Char}
    (noLetter : ∀ close ∈ literalEnd, close.isAlpha = false) (s : List Char) :
    bracketBalance literalEnd (capitals s) = bracketBalance literalEnd s := by
  have isDollar : '$'.toUpper = '$' := by decide
  have round (c : Char) : c.toUpper = '(' ↔ c = '(' := toUpper_eq_iff (by decide)
  have square (c : Char) : c.toUpper = '[' ↔ c = '[' := toUpper_eq_iff (by decide)
  have roundEnd (c : Char) : c.toUpper = ')' ↔ c = ')' := toUpper_eq_iff (by decide)
  have squareEnd (c : Char) : c.toUpper = ']' ↔ c = ']' := toUpper_eq_iff (by decide)
  fun_induction bracketBalance literalEnd s with
  | case1 => rfl
  | case2 c rest close ih => simp [bracketBalance, isDollar, ih noLetter]
  | case3 c rest ih =>
    rw [capitals_cons, capitals_cons, isDollar, bracketBalance, ← ih noLetter, capitals_cons]
  | case4 c rest unescaped close ih =>
    have inLiteral : ∀ next ∈ (if c = close then none else some close), next.isAlpha = false := by
      intro next isNext
      split at isNext
      · cases isNext
      · exact noLetter next isNext
    rw [capitals_cons, bracketBalance]
    · simpa only [toUpper_eq_iff (noLetter close rfl)] using ih inLiteral
    · exact unescaped_capitals unescaped
  | case5 c rest unescaped opens ih =>
    rw [capitals_cons, bracketBalance]
    · simp [round, square, opens, ih noLetter]
    · exact unescaped_capitals unescaped
  | case6 c rest unescaped notOpening closes ih =>
    rw [capitals_cons, bracketBalance]
    · simp [round, square, roundEnd, squareEnd, notOpening, closes, ih noLetter]
    · exact unescaped_capitals unescaped
  | case7 c rest unescaped notOpening notClosing ih =>
    have inLiteral : ∀ close ∈ stringClose? c, close.isAlpha = false :=
      fun close opens => isAlpha_of_quoteClose? (quoteClose?_of_string opens)
    rw [capitals_cons, bracketBalance]
    · simp [round, square, roundEnd, squareEnd, notOpening, notClosing, ih inLiteral]
    · exact unescaped_capitals unescaped

theorem expectsMore_capitals (s : List Char) : expectsMore (capitals s) = expectsMore s := by
  have noSign : ∀ sign ∈ waitingSigns, sign.isAlpha = false := by simp [waitingSigns]
  have waits (c : Char) : waitingSigns.contains c.toUpper = waitingSigns.contains c := by
    rw [Bool.eq_iff_iff, List.contains_iff_mem, List.contains_iff_mem]
    constructor
    · intro member
      have same : c = c.toUpper := (toUpper_eq_iff (noSign _ member)).mp rfl
      rwa [← same] at member
    · intro member
      rwa [(toUpper_eq_iff (noSign _ member)).mpr rfl]
  have last (word : String) (s : List Char) :
      sameLetters word.toList (capitals s) = sameLetters word.toList s := by
    rw [sameLetters, sameLetters, capitals, List.map_map]
    exact congrArg (_ == s.map ·) (funext toUpper_toUpper)
  have sign (s : List Char) :
      (capitals s).getLast?.any waitingSigns.contains = s.getLast?.any waitingSigns.contains := by
    rw [capitals, List.getLast?_map]
    cases s.getLast? with
    | none => rfl
    | some c => exact waits c
  have blank (s : List Char) : (capitals s).isEmpty = s.isEmpty := by
    cases s <;> rfl
  have balance (s : List Char) : bracketBalance none (capitals s) = bracketBalance none s :=
    bracketBalance_capitals (by simp) s
  simp only [expectsMore, trimEnd_capitals, blank, balance, sign, last, capitals_reverse,
    capitals_takeWhile isNameChar_toUpper]

end Expressions

def Assignment.capitalized (assignment : Assignment) : Assignment where
  target := capitals assignment.target
  expression := capitals assignment.expression
  terminated := assignment.terminated

namespace Recased

variable {s t : List Char} (alike : Recased s t)

include alike

theorem conditionalWord :
    (ConditionalWord.read? s).map ConditionalWord.capitalized =
      (ConditionalWord.read? t).map ConditionalWord.capitalized := by
  rw [← ConditionalWord.read?_capitals, alike.letters, ConditionalWord.read?_capitals]

theorem openCondition : openCondition? s = openCondition? t := by
  rw [← openCondition?_capitals, alike.letters, openCondition?_capitals]

theorem blockWord : BlockWord.read? s = BlockWord.read? t := by
  rw [← BlockWord.read?_capitals, alike.letters, BlockWord.read?_capitals]

theorem access : Option.Rel Recased (Assignment.access s) (Assignment.access t) := by
  have first := alike.trimStart
  rw [Assignment.access, Assignment.access]
  generalize StructuredText.trimStart s = one at first ⊢
  generalize StructuredText.trimStart t = other at first ⊢
  rcases first.starts (by decide : '.'.isAlpha = false) with
    ⟨rest, otherRest, rfl, rfl, behind⟩ | ⟨noDot, otherNoDot⟩
  · exact behind.trimStart.name
  · split
    · exact absurd rfl (noDot _)
    · exact first.bracketed (by decide) (by decide)

omit alike in
theorem afterAccesses {s t : List Char} (alike : Recased s t) :
    Recased (Assignment.afterAccesses s) (Assignment.afterAccesses t) := by
  fun_induction Assignment.afterAccesses s generalizing t with
  | case1 s rest more ih =>
    obtain ⟨other, otherMore, behind⟩ := exists_of_rel (more ▸ alike.access)
    rw [Assignment.afterAccesses_of_some otherMore]
    exact ih behind
  | case2 s noMore =>
    rw [Assignment.afterAccesses_of_none (eq_none_of_rel (noMore ▸ alike.access))]
    exact alike

theorem assignment :
    Option.Rel (fun one other => one.capitalized = other.capitalized)
      (Assignment.read? s) (Assignment.read? t) := by
  refine rel_bind alike.name fun rest other behind => ?_
  have accessed := behind.afterAccesses
  refine rel_bind accessed.trimStart.assignSign fun body otherBody value => ?_
  have text := value.trimStart
  have ended : ((StructuredText.trimStart body).getLast? == some ';') =
      ((StructuredText.trimStart otherBody).getLast? == some ';') := by
    rw [Bool.eq_iff_iff, beq_iff_eq, beq_iff_eq]
    exact text.getLast?_iff (by decide)
  have expression :
      Recased
        (StructuredText.trimEnd (if (StructuredText.trimStart body).getLast? == some ';' then
          (StructuredText.trimStart body).dropLast else StructuredText.trimStart body))
        (StructuredText.trimEnd (if (StructuredText.trimStart otherBody).getLast? == some ';' then
          (StructuredText.trimStart otherBody).dropLast
          else StructuredText.trimStart otherBody)) := by
    rw [ended]
    split
    · exact text.dropLast.trimEnd
    · exact text.trimEnd
  dsimp only
  generalize StructuredText.trimEnd _ = one at expression ⊢
  generalize StructuredText.trimEnd _ = second at expression ⊢
  simp only [expression.contains_newline]
  split
  · exact .none
  · refine .some ?_
    simp only [Assignment.capitalized, (alike.consumed accessed).letters, expression.letters, ended]

end Recased

end StructuredText
