import StructuredText.Proofs.ModelChange

set_option autoImplicit false

namespace StructuredText

-- The problems of a construct that is not taken. One with another problem is kept all the same.
def Problem.isRefusal : Problem → Bool
  | nestedPou | nestedMember _ | memberOutsideFunctionBlock _ | sectionOutsidePou
  | mismatchedEnd _ _ _ | malformedDeclaration _ | unexpectedKeyword _ | elsifAfterElse
  | duplicateElse | unterminatedStatement _ => true
  | unclosed _ _ | unclosedIf | unclosedSection _ | unterminatedComment | invalidParameter _
  | missingSemicolon | missingCondition _ => false

theorem Problem.keepsStatement_of_isRefusal {problem : Problem}
    (refusal : problem.isRefusal = true) : problem.keepsStatement = false := by
  cases problem <;> simp_all [isRefusal, keepsStatement]

namespace Builder

section Refused

variable {builder : Builder} {root : List Statement} {pos : Position} {problem : Problem}

theorem openBranch_unchanged {keyword : String} {afterElse : Problem}
    {change : Conditional → Conditional × Branch} {missing : Option Problem}
    (refused : (builder.openBranch root keyword afterElse change missing).2.2 = some problem)
    (other : missing ≠ some problem) :
    (builder.openBranch root keyword afterElse change missing).1 = builder ∧
      (builder.openBranch root keyword afterElse change missing).2.1 = root := by
  unfold openBranch at refused ⊢
  split
  · exact ⟨rfl, rfl⟩
  · rename_i top isTop
    simp only [isTop] at refused
    split
    · exact ⟨rfl, rfl⟩
    · rename_i unfinished
      rw [if_neg unfinished] at refused
      split
      · exact ⟨rfl, rfl⟩
      · rename_i found
        simp only [found] at refused
        exact absurd refused other

theorem missingCondition?_ne {keyword condition : String} (drops : problem.keepsStatement = false) :
    missingCondition? keyword condition ≠ some problem := by
  intro missing
  simp only [missingCondition?, Option.ite_none_right_eq_some, Option.some.injEq] at missing
  rw [← missing.2] at drops
  cases drops

theorem conditional_unchanged {word : ConditionalWord}
    (refused : (builder.conditional root pos word).2.2 = some problem)
    (drops : problem.keepsStatement = false) :
    (builder.conditional root pos word).1 = builder ∧
      (builder.conditional root pos word).2.1 = root := by
  cases word with
  | ifThen condition => exact absurd refused (missingCondition?_ne drops)
  | elsif condition => exact openBranch_unchanged refused (missingCondition?_ne drops)
  | otherwise => exact openBranch_unchanged refused (by simp)
  | endIf =>
    simp only [conditional] at refused ⊢
    split
    · exact ⟨rfl, rfl⟩
    · rename_i isOpen
      rw [if_neg isOpen] at refused
      cases refused

theorem build_unchanged {text : List Char} {continued : Bool}
    (refused : (builder.build root text pos continued).result = .error problem)
    (drops : problem.keepsStatement = false) :
    (builder.build root text pos continued).builder = builder ∧
      (builder.build root text pos continued).root = root := by
  simp only [build] at refused ⊢
  split
  · rename_i isBlock
    simp [isBlock] at refused
  · rename_i isBlock
    simp [isBlock] at refused
  · rename_i noBlock
    simp only [noBlock] at refused
    split
    · rename_i word read
      simp only [read] at refused
      split
      · exact ⟨rfl, rfl⟩
      · rename_i outside
        rw [if_neg outside] at refused
        have unchanged := @conditional_unchanged builder root pos problem word
        split
        · rename_i taken
          simp [taken] at refused
        · rename_i taken
          rw [taken] at unchanged
          simp only [taken, Except.error.injEq] at refused
          exact unchanged (congrArg some refused) drops
    · rename_i assignment noWord read
      simp only [noWord, read, assign] at refused
      split at refused
      · cases refused
      · simp only at refused
        split at refused
        · cases refused
        · rw [← Except.error.inj refused] at drops
          cases drops
    · rename_i noWord noAssignment
      split
      · rename_i starts
        split
        · exact ⟨rfl, rfl⟩
        · rename_i goesOn
          simp [noWord, noAssignment, starts, goesOn] at refused
      · split <;> exact ⟨rfl, rfl⟩

end Refused

theorem feed_refused {builder : Builder} {root : List Statement} {text : List Char}
    {pos : Position} {problem : Problem}
    (refused : (builder.feed root text pos).result = .error problem)
    (drops : problem.keepsStatement = false) :
    (builder.feed root text pos).builder = builder.dropPending.1 ∧
      (builder.feed root text pos).root = root ∧
      (builder.feed root text pos).reported = builder.dropPending.2 := by
  obtain ⟨frames, blocks, pending⟩ := builder
  cases pending with
  | none =>
    obtain ⟨same, sameRoot⟩ := build_unchanged refused drops
    exact ⟨same, sameRoot, build_reported ..⟩
  | some pending =>
    simp only [feed] at refused ⊢
    split
    · rename_i isWord
      rw [if_pos isWord] at refused
      obtain ⟨same, sameRoot⟩ := build_unchanged refused drops
      exact ⟨same, sameRoot, rfl⟩
    · rename_i noWord
      rw [if_neg noWord] at refused
      split at refused
      · rename_i fed taken
        rw [taken] at refused
        cases refused
      · cases refused

theorem feed_joined {builder : Builder} {root : List Statement} {text : List Char}
    (pos : Position) {problem : Problem} {pending : Pending}
    (waits : builder.pending = some pending) (goesOn : ConditionalWord.read? text = none)
    (refused : ({ builder with pending := none }.build root (pending.text ++ ' ' :: text)
      pending.pos true).result = .error problem)
    (drops : problem.keepsStatement = false) :
    builder.feed root text pos =
      { builder := builder.dropPending.1, root, result := .ok .statement,
        reported := [problem.at pending.pos] } := by
  obtain ⟨same, sameRoot⟩ := build_unchanged refused drops
  simp only [feed, waits, goesOn, Option.isSome_none, Bool.false_eq_true, if_false, refused, same,
    sameRoot]
  rfl

end Builder

namespace State

inductive Refuses (state : State) (step : Step) (problem : Problem) : Position → Prop where
  | returned
      (result : (state.fragment step.line step.fragment step.next).2 = some problem) :
      Refuses state step problem step.start
  | joined {scopes : Scopes} {pending : Pending} (current : state.current = some scopes)
      (code : scopes.TakesAsCode step) (waits : scopes.builder.pending = some pending)
      (goesOn : ConditionalWord.read? step.text = none)
      (result : ({ scopes.builder with pending := none }.build scopes.pou.body.statements
        (pending.text ++ ' ' :: step.text) pending.pos true).result = .error problem) :
      Refuses state step problem pending.pos

/-- Two states that differ in their diagnostics only, but for a pending statement that may be
gone. -/
structure Intact (before after : State) : Prop where
  functionBlocks : after.model.functionBlocks = before.model.functionBlocks
  programs : after.model.programs = before.model.programs
  functions : after.model.functions = before.model.functions
  pou : after.pou? = before.pou?
  member : after.member? = before.member?
  varSection : after.varSection? = before.varSection?
  frames : after.builder.frames = before.builder.frames
  blocks : after.builder.blocks = before.builder.blocks
  pending : after.builder.pending = none ∨ after.builder.pending = before.builder.pending

def withoutPending (state : State) : State :=
  { state with
    current := state.current.map fun scopes =>
      { scopes with builder := scopes.builder.dropPending.1 } }

variable {state : State} {scopes : Scopes} {step : Step} {problem : Problem} {pos : Position}

theorem dropPending_eq (state : State) :
    state.dropPending = state.withoutPending.report state.builder.dropPending.2 := by
  obtain ⟨document, current⟩ := state
  cases current with
  | none =>
    simp [dropPending, withoutPending, builder, Builder.dropPending, report, Document.report]
  | some scopes => rfl

theorem Intact.refl (state : State) : state.Intact state :=
  ⟨rfl, rfl, rfl, rfl, rfl, rfl, rfl, rfl, .inr rfl⟩

theorem Intact.withoutPending (state : State) : state.Intact state.withoutPending := by
  obtain ⟨document, current⟩ := state
  cases current with
  | none => exact .refl _
  | some scopes => exact ⟨rfl, rfl, rfl, rfl, rfl, rfl, rfl, rfl, .inl rfl⟩

theorem Intact.report {before after : State} (intact : before.Intact after)
    (diagnostics : List Diagnostic) : before.Intact (after.report diagnostics) where
  functionBlocks := by rw [model_report]; exact intact.functionBlocks
  programs := by rw [model_report]; exact intact.programs
  functions := by rw [model_report]; exact intact.functions
  pou := intact.pou
  member := intact.member
  varSection := intact.varSection
  frames := intact.frames
  blocks := intact.blocks
  pending := intact.pending

theorem closing_refused {word : ClosingWord} (refused : (state.closing word).2 = some problem) :
    (state.closing word).1 = state := by
  cases current : state.current with
  | none => simp [closing, current]
  | some scopes =>
    cases word with
    | var | get | set | pou kind =>
      simp only [closing, current] at refused ⊢
      split
      · rename_i closes
        simp [closes] at refused
      · rfl
    | method | property =>
      simp only [closing, current] at refused ⊢
      split
      · rfl
      · rename_i member isOpen
        split
        · rename_i closes
          simp [isOpen, closes] at refused
        · rfl

theorem openMember_refused {member : Member} {problems : List Diagnostic}
    (refused : (state.openMember member problems).2 = some problem) :
    (state.openMember member problems).1 = state := by
  cases current : state.current with
  | none => simp [openMember, current]
  | some scopes =>
    simp only [openMember, current] at refused ⊢
    split
    · rename_i owner
      simp [owner] at refused
    · rfl
    · rfl

theorem boundary_refused {boundary : Boundary}
    (refused : (state.boundary pos boundary).2 = some problem) :
    (state.boundary pos boundary).1 = state := by
  cases boundary with
  | closing word => exact closing_refused refused
  | method header => exact openMember_refused refused
  | property header => exact openMember_refused refused
  | pou header =>
    cases current : state.current with
    | none => simp [State.boundary, openPou, current] at refused
    | some scopes => simp [State.boundary, openPou, current]
  | varSection header =>
    cases current : state.current with
    | none => simp [State.boundary, openSection, current]
    | some scopes => simp [State.boundary, openSection, current] at refused

theorem declare_refused {header : SectionHeader} {text : List Char} {line : Nat}
    {comment : Option String}
    (refused : (state.declare scopes header text line comment).2 = some problem) :
    (state.declare scopes header text line comment).1 = state := by
  unfold declare at refused ⊢
  split
  · rfl
  · rename_i scope modelled
    split
    · rfl
    · rename_i declaration read
      simp [modelled, read] at refused

theorem accept_problem (outcome : Builder.Outcome) (number : Nat) (copied : String) :
    (state.accept scopes outcome number copied).2 = some problem ↔
      outcome.result = .error problem := by
  unfold accept
  cases outcome.result with
  | error other => simp
  | ok fed => cases fed <;> simp

theorem accept_unchanged (current : state.current = some scopes) {outcome : Builder.Outcome}
    (builder : outcome.builder = scopes.builder.dropPending.1)
    (root : outcome.root = scopes.pou.body.statements)
    (supported : ∀ text, outcome.result ≠ .ok (.unsupported text)) (number : Nat)
    (copied : String) :
    (state.accept scopes outcome number copied).1 =
      state.withoutPending.report outcome.reported := by
  have pou : scopes.pou.setBody { scopes.pou.body with statements := outcome.root } =
      scopes.pou := by
    rw [root]
    exact scopes.pou.setBody_body
  have kept : (state.report outcome.reported).setScopes
        { scopes with pou := scopes.pou, builder := scopes.builder.dropPending.1 } =
      state.withoutPending.report outcome.reported := by
    simp [withoutPending, current, State.report, setScopes]
  simp only [accept, pou, builder]
  split
  · exact kept
  · rename_i text result
    exact absurd result (supported text)
  · exact kept

theorem content_refused (current : state.current = some scopes)
    (refused : (state.content step.text pos step.line step.comment).2 = some problem)
    (drops : problem.keepsStatement = false) :
    (state.content step.text pos step.line step.comment).1 = state ∨
      (state.content step.text pos step.line step.comment).1 = state.dropPending := by
  rw [content_eq_take] at refused ⊢
  simp only [take, current] at refused ⊢
  cases inSection : scopes.varSection with
  | some opened =>
    simp only [inSection] at refused ⊢
    exact .inl (declare_refused refused)
  | none =>
    cases accessor : (Accessor.read? step.text).bind scopes.pou.withAccessor? with
    | some pou => simp [inSection, accessor] at refused
    | none =>
      simp only [inSection, accessor] at refused ⊢
      right
      have failed := (accept_problem ..).mp refused
      obtain ⟨builder, root, reported⟩ := Builder.feed_refused failed drops
      rw [accept_unchanged current builder root (by simp [failed]), reported, dropPending_eq,
        State.builder, current]
      rfl

theorem fragment_refused
    (refused : (state.fragment step.line step.fragment step.next).2 = some problem)
    (drops : problem.keepsStatement = false) :
    (state.fragment step.line step.fragment step.next).1 = state ∨
      (state.fragment step.line step.fragment step.next).1 = state.dropPending := by
  rw [fragment_eq] at refused ⊢
  split
  · exact .inl rfl
  · rename_i nonempty
    rw [if_neg nonempty] at refused
    cases read : step.boundary? with
    | some boundary =>
      simp only [read] at refused ⊢
      exact .inr (boundary_refused refused)
    | none =>
      simp only [read] at refused ⊢
      cases current : state.current with
      | none => simp [content, current] at refused
      | some scopes => exact content_refused current refused drops

/-- A construct that is refused is reported and leaves the model, what is open in it and the open
IFs and blocks as they are. A statement may have been pending and ended with it. -/
theorem intact_of_refuses (refuses : state.Refuses step problem pos)
    (refusal : problem.isRefusal = true) :
    state.Intact (state.step step) ∧
      ∃ interrupted, (state.step step).document.diagnostics =
          state.document.diagnostics ++ interrupted ++ [problem.at pos] ∧
        (interrupted = [] ∨ ∃ pending, state.builder.pending = some pending ∧
          interrupted = [pending.unterminated]) := by
  have drops := Problem.keepsStatement_of_isRefusal refusal
  cases refuses with
  | returned refused =>
    have result : state.step step =
        (state.fragment step.line step.fragment step.next).1.report [problem.at step.start] := by
      have settled : state.step step =
          settle (state.fragment step.line step.fragment step.next) step.start := rfl
      rw [settled, settle, refused]
      rfl
    rw [result]
    rcases fragment_refused refused drops with same | dropped
    · rw [same]
      exact ⟨(Intact.refl state).report _, [], by simp [State.report, Document.report], .inl rfl⟩
    · rw [dropped, dropPending_eq]
      refine ⟨((Intact.withoutPending state).report _).report _,
        state.builder.dropPending.2, ?_, ?_⟩
      · simp [State.report, Document.report, withoutPending]
      · cases waits : state.builder.pending with
        | none => exact .inl (by simp [Builder.dropPending, waits])
        | some pending => exact .inr ⟨pending, rfl, by simp [Builder.dropPending, waits]⟩
  -- The fragment ends a pending statement, and the whole of it is refused.
  | @joined scopes pending current code waits goesOn refused =>
    have fed := Builder.feed_joined step.pos waits goesOn refused drops
    have result : state.step step = state.withoutPending.report [problem.at pending.pos] := by
      rw [step_of_content state code.nonempty code.noBoundary, content_eq_take]
      simp only [take, current, code.noSection, code.noAccessor, fed]
      rw [settle, accept_unchanged current rfl rfl (by simp)]
      simp [accept, State.report, Document.report]
    rw [result]
    exact ⟨(Intact.withoutPending state).report _, [],
      by simp [State.report, Document.report, withoutPending], .inl rfl⟩

def interruptedState : State :=
  stateAfter (steps "FUNCTION_BLOCK F\nMETHOD M\nIF a THEN\nx := 1;\nELSE\ny := b +\n")

def endingStep : Step :=
  ⟨⟨"END_PROPERTY".toList, ⟨"END_PROPERTY".toList, []⟩, 7⟩, ⟨"END_PROPERTY".toList, 0, 12⟩, none⟩

theorem intact_of_endProperty :
    interruptedState.Refuses endingStep (.mismatchedEnd "END_PROPERTY" .method "M") ⟨7, 1⟩ ∧
      Problem.isRefusal (.mismatchedEnd "END_PROPERTY" .method "M") = true ∧
      interruptedState.Intact (interruptedState.step endingStep) ∧
      (interruptedState.step endingStep).document.diagnostics =
        [⟨.unterminatedStatement "y := b +", 6, some 1⟩,
          ⟨.mismatchedEnd "END_PROPERTY" .method "M", 7, some 1⟩] := by
  have refuses : interruptedState.Refuses endingStep
      (.mismatchedEnd "END_PROPERTY" .method "M") ⟨7, 1⟩ := .returned (by decide +kernel)
  obtain ⟨intact, -⟩ := intact_of_refuses refuses rfl
  exact ⟨refuses, rfl, intact, by decide +kernel⟩

end State

end StructuredText
