import StructuredText.Proofs.LineTexts
import StructuredText.Proofs.Skeleton

set_option autoImplicit false

namespace StructuredText

-- How many blocks are open behind a text, if it is unsupported. ELSE and ELSIF are so in a block.
def blocksAfter? (depth : Nat) (text : List Char) : Option Nat :=
  if (Boundary.read? text).isSome || (Accessor.read? text).isSome then none
  else
    match BlockWord.read? text with
    | some .opening => some (depth + 1)
    | some .closing => some (depth - 1)
    | none =>
      match ConditionalWord.read? text with
      | some .otherwise | some (.elsif _) => if depth = 0 then none else some depth
      | some (.ifThen _) | some .endIf => none
      | none =>
        if (Assignment.read? text).isSome || (openCondition? text).isSome then none
        else some depth

def blocksAfterAll? : Nat → List (List Char) → Option Nat
  | depth, [] => some depth
  | depth, text :: texts => (blocksAfter? depth text).bind fun next => blocksAfterAll? next texts

theorem blocksAfterAll?_append (depth : Nat) (before after : List (List Char)) :
    blocksAfterAll? depth (before ++ after) =
      (blocksAfterAll? depth before).bind fun next => blocksAfterAll? next after := by
  induction before generalizing depth with
  | nil => rfl
  | cons text before ih =>
    simp only [List.cons_append, blocksAfterAll?]
    cases blocksAfter? depth text with
    | none => rfl
    | some next => exact ih next

theorem blocksAfter?_eq_some {depth after : Nat} {text : List Char}
    (left : blocksAfter? depth text = some after) :
    Boundary.read? text = none ∧ Accessor.read? text = none := by
  unfold blocksAfter? at left
  split at left
  · cases left
  · rename_i noneOfBoth
    simpa using noneOfBoth

def Builder.within (depth : Nat) : Builder :=
  { blocks := List.replicate depth 0 }

theorem Builder.feed_unsupported {depth after : Nat} {text : List Char}
    (left : blocksAfter? depth text = some after) (pos : Position) :
    (within depth).feed [] text pos = ⟨within after, [], .ok (.unsupported text), []⟩ := by
  unfold blocksAfter? at left
  split at left
  · cases left
  have inBlock (notOutside : depth ≠ 0) :
      (List.replicate depth 0).getLast? = some (0 : Nat) := by
    simp [List.getLast?_replicate, notOutside]
  simp only [feed, within, build, Bool.false_eq_true, if_false]
  cases block : BlockWord.read? text with
  | some word =>
    simp only [block] at left
    cases word with
    | opening =>
      cases left
      simp [List.replicate_succ']
    | closing =>
      cases left
      simp
  | none =>
    simp only [block] at left
    cases isWord : ConditionalWord.read? text with
    | some word =>
      simp only [isWord] at left
      cases word with
      | otherwise | elsif condition =>
        obtain ⟨notOutside, same⟩ := Option.ite_none_left_eq_some.mp left
        cases same
        simp [belongsToBlock, inBlock notOutside]
      | ifThen condition | endIf => cases left
    | none =>
      simp only [isWord] at left
      obtain ⟨noneOfBoth, same⟩ := Option.ite_none_left_eq_some.mp left
      cases same
      simp only [Bool.or_eq_true, not_or, Bool.not_eq_true, Option.isSome_eq_false_iff,
        Option.isNone_iff_eq_none] at noneOfBoth
      simp [noneOfBoth]

namespace State

def unsupportedIn (pou : OpenPou) (depth : Nat) (copiedLine : Option Nat) : State :=
  { current := some { pou, builder := .within depth, copiedLine } }

variable {pou : OpenPou} {depth after : Nat} (copiedLine : Option Nat)

theorem step_unsupported {step : Step} (left : blocksAfter? depth step.text = some after)
    (noStatements : pou.body.statements = []) :
    ∃ next copied,
      (unsupportedIn pou depth copiedLine).step step = unsupportedIn next after copied ∧
      next.skeleton = pou.skeleton ∧ next.body.statements = [] := by
  by_cases blank : step.text = []
  · have same : after = depth := by
      rw [blank] at left
      exact (Option.some.inj left).symm
    exact ⟨pou, copiedLine, by rw [step_of_blank _ blank, same], rfl, noStatements⟩
  obtain ⟨noBoundary, noAccessor⟩ := blocksAfter?_eq_some left
  let scopes : Scopes := { pou, builder := .within after, copiedLine }
  obtain ⟨next, copied, recorded, skeleton, statements⟩ :=
    skeleton_recordUnsupported scopes step.text step.line
  refine ⟨next, copied, ?_, skeleton, statements.trans noStatements⟩
  have unchanged : pou.setBody { pou.body with statements := [] } = pou := by
    rw [← noStatements]
    exact pou.setBody_body
  rw [step_of_content _ blank noBoundary, unsupportedIn,
    content_of_statement rfl rfl noAccessor]
  simp only [statement, noStatements, Builder.feed_unsupported left, unchanged]
  exact congrArg (fun scopes => settle (setScopes _ scopes, none) _) recorded

theorem run_unsupported {steps : List Step}
    (left : blocksAfterAll? depth (steps.map Step.text) = some after)
    (noStatements : pou.body.statements = []) :
    ∃ next copied,
      (unsupportedIn pou depth copiedLine).run steps = unsupportedIn next after copied ∧
      next.skeleton = pou.skeleton ∧ next.body.statements = [] := by
  induction steps generalizing pou depth copiedLine with
  | nil =>
    cases left
    exact ⟨pou, copiedLine, rfl, rfl, noStatements⟩
  | cons step steps ih =>
    obtain ⟨middle, first, rest⟩ := Option.bind_eq_some_iff.mp left
    obtain ⟨one, copied, stepped, sameCode, stillNone⟩ :=
      step_unsupported copiedLine first noStatements
    obtain ⟨next, last, reached, skeleton, statements⟩ := ih copied rest stillNone
    exact ⟨next, last, by rw [run_cons, stepped, reached], skeleton.trans sameCode, statements⟩

end State

end StructuredText
