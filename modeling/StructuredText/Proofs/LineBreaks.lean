import StructuredText.Proofs.FragmentTexts
import StructuredText.Proofs.ViewedReading

set_option autoImplicit false

namespace StructuredText

theorem State.foldl_line_eq_run (state : State) (lines : List SourceLine) :
    lines.foldl State.line state = state.run (lines.flatMap SourceLine.steps) := by
  induction lines generalizing state with
  | nil => rfl
  | cons line lines ih =>
    rw [List.foldl_cons, ih, List.flatMap_cons, State.run_append]
    exact congrArg (State.run · _) (State.fragments_eq_run ..)

theorem Step.alike_unplaced {one other : Step} (text : one.fragment.text = other.fragment.text)
    (left : one.line.stripped.comments = []) (right : other.line.stripped.comments = []) :
    one.Alike .unplaced .unplaced other where
  text := congrArg withoutPragmas text
  pos := rfl
  start := rfl
  number := rfl
  comment := by rw [comment_eq_none left, comment_eq_none right]
  copy := rfl

theorem SourceLine.steps_of_single {line : SourceLine} {text : List Char}
    (single : (fragments line.stripped.code).map Fragment.text = [text]) :
    ∃ fragment, fragment.text = text ∧ line.steps = [⟨line, fragment, none⟩] := by
  obtain ⟨fragment, only, isText⟩ := List.map_eq_singleton_iff.mp single
  refine ⟨fragment, isText, ?_⟩
  rw [SourceLine.steps, only]
  rfl

theorem alike_lineSteps {line : SourceLine} (uncommented : line.stripped.comments = [])
    {parts : List Fragment}
    (single : ∀ part ∈ parts, (fragments part.text).map Fragment.text = [part.text])
    {broken : List SourceLine}
    (texts : broken.map SourceLine.stripped = parts.map fun part => ⟨part.text, []⟩) :
    List.Forall₂ (Step.Alike .unplaced .unplaced) (lineSteps line parts)
      (broken.flatMap SourceLine.steps) := by
  induction parts generalizing broken with
  | nil =>
    obtain rfl : broken = [] := List.map_eq_nil_iff.mp texts
    exact .nil
  | cons part parts ih =>
    obtain ⟨first, others, rfl, isFirst, areOthers⟩ := List.map_eq_cons_iff.mp texts
    have alone : (fragments first.stripped.code).map Fragment.text = [part.text] := by
      rw [isFirst]
      exact single part List.mem_cons_self
    obtain ⟨fragment, isText, step⟩ := SourceLine.steps_of_single alone
    have bare : first.stripped.comments = [] := by rw [isFirst]
    rw [lineSteps, List.flatMap_cons, step]
    exact .cons (Step.alike_unplaced isText.symm uncommented bare)
      (ih (fun other member => single other (List.mem_cons_of_mem part member)) areOthers)

theorem viewed_line_broken (state : State) {line : SourceLine}
    (uncommented : line.stripped.comments = []) {broken : List SourceLine}
    (texts : broken.map SourceLine.stripped =
      (fragments line.stripped.code).map fun fragment => ⟨fragment.text, []⟩) :
    (state.line line).viewed .unplaced = (broken.foldl State.line state).viewed .unplaced ∧
      (state.line line).finish.viewed .unplaced =
        (broken.foldl State.line state).finish.viewed .unplaced := by
  have alike := alike_lineSteps uncommented
    (fun part member => map_text_fragments_text member) texts
  have reading : state.line line = state.run line.steps := State.fragments_eq_run ..
  have same : (state.line line).viewed .unplaced =
      (broken.foldl State.line state).viewed .unplaced := by
    rw [reading, State.foldl_line_eq_run]
    exact State.run_alike rfl alike
  refine ⟨same, ?_⟩
  rw [← State.finish_viewed, ← State.finish_viewed, same]

def uncommentedLine (number : Nat) (text : String) : SourceLine :=
  ⟨text.toList, ⟨text.toList, []⟩, number⟩

def crowdedState : State :=
  State.line {} (uncommentedLine 1 "FUNCTION_BLOCK F METHOD M x := 1 +")

def crowdedLine : SourceLine :=
  uncommentedLine 2 "2; s := '; IF'; IF x > 1 THEN f(); g(); END_IF; END_METHOD VAR a, b : INT;"

def brokenLines : List SourceLine :=
  [uncommentedLine 2 "2;", uncommentedLine 3 "s := '; IF';", uncommentedLine 4 "IF x > 1 THEN",
    uncommentedLine 5 "f();", uncommentedLine 6 "g();", uncommentedLine 7 "END_IF;",
    uncommentedLine 8 "END_METHOD", uncommentedLine 9 "VAR", uncommentedLine 10 "a, b : INT;"]

theorem viewed_crowdedLine_broken :
    (crowdedState.line crowdedLine).viewed .unplaced =
        (brokenLines.foldl State.line crowdedState).viewed .unplaced ∧
      (crowdedState.line crowdedLine).finish.viewed .unplaced =
        (brokenLines.foldl State.line crowdedState).finish.viewed .unplaced :=
  viewed_line_broken crowdedState rfl (by decide +kernel)

end StructuredText
