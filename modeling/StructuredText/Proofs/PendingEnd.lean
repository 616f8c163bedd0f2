import StructuredText.Proofs.Refusal
import StructuredText.Proofs.StructuralDiagnostics

set_option autoImplicit false

namespace StructuredText

def Problem.isUnterminated : Problem → Bool
  | unterminatedStatement _ => true
  | _ => false

namespace State

def isStructural (state : State) (step : Step) : Bool :=
  step.boundary?.isSome ||
    (state.pou?.bind fun pou => (Accessor.read? step.text).bind pou.withAccessor?).isSome

structure EndsQuietly (before after : State) : Prop where
  idle : after.builder.pending = none
  diagnostics : ∃ others, after.document.diagnostics = before.document.diagnostics ++ others ∧
    ∀ diagnostic ∈ others, diagnostic.problem.isUnterminated = false

structure Ends (pending : Pending) (before after : State) : Prop where
  idle : after.builder.pending = none
  diagnostics : ∃ others, after.document.diagnostics =
      before.document.diagnostics ++ pending.unterminated :: others ∧
    ∀ diagnostic ∈ others, diagnostic.problem.isUnterminated = false

variable {state : State} {scopes : Scopes} {step : Step}

theorem EndsQuietly.refl (idle : state.builder.pending = none) : state.EndsQuietly state :=
  ⟨idle, [], by simp, by simp⟩

theorem EndsQuietly.report {after : State} (quiet : state.EndsQuietly after)
    {diagnostics : List Diagnostic}
    (others : ∀ diagnostic ∈ diagnostics, diagnostic.problem.isUnterminated = false) :
    state.EndsQuietly (after.report diagnostics) := by
  obtain ⟨idle, earlier, reported, quietly⟩ := quiet
  refine ⟨idle, earlier ++ diagnostics, ?_, ?_⟩
  · simp [State.report, Document.report, reported]
  · intro diagnostic member
    rcases List.mem_append.mp member with early | late
    · exact quietly diagnostic early
    · exact others diagnostic late

theorem unfinished_quiet (idle : scopes.builder.pending = none) :
    ∀ diagnostic ∈ scopes.unfinished, diagnostic.problem.isUnterminated = false := by
  intro diagnostic member
  simp only [Scopes.unfinished, Builder.close, idle, Option.map_none, Option.toList_none,
    List.nil_append, List.mem_append, Option.mem_toList, Option.map_eq_some_iff] at member
  rcases member with ⟨opened, -, rfl⟩ | ⟨frame, -, rfl⟩ <;> rfl

theorem unclosed_quiet (idle : scopes.builder.pending = none) :
    ∀ diagnostic ∈ scopes.unclosed, diagnostic.problem.isUnterminated = false := by
  intro diagnostic member
  rcases List.mem_append.mp member with early | late
  · exact unfinished_quiet idle diagnostic early
  · simp only [Option.mem_toList, Option.map_eq_some_iff] at late
    obtain ⟨inner, -, rfl⟩ := late
    rfl

theorem closing_quiet (idle : state.builder.pending = none) (word : ClosingWord) :
    state.EndsQuietly (state.closing word).1 := by
  cases current : state.current with
  | none => simpa [closing, current] using EndsQuietly.refl idle
  | some scopes =>
    have scopesIdle : scopes.builder.pending = none := by simpa [builder, current] using idle
    have fresh (next : Scopes) (nextIdle : next.builder.pending = none) :
        state.EndsQuietly (state.setScopes next) := ⟨nextIdle, [], by simp [setScopes], by simp⟩
    cases word with
    | var =>
      simp only [closing, current]
      split
      · exact fresh _ scopesIdle
      · exact .refl idle
    | get | set =>
      simp only [closing, current]
      split <;> exact .refl idle
    | pou kind =>
      simp only [closing, current]
      split
      · simp only [closePou, current]
        exact ⟨rfl, scopes.unclosed, by simp, unclosed_quiet scopesIdle⟩
      · exact .refl idle
    | method | property =>
      simp only [closing, current]
      split
      · exact .refl idle
      · split
        · exact (fresh _ rfl).report (unfinished_quiet scopesIdle)
        · exact .refl idle

theorem openMember_quiet (idle : state.builder.pending = none) (member : Member)
    {problems : List Diagnostic}
    (others : ∀ diagnostic ∈ problems, diagnostic.problem.isUnterminated = false) :
    state.EndsQuietly (state.openMember member problems).1 := by
  cases current : state.current with
  | none => simpa [openMember, current] using EndsQuietly.refl idle
  | some scopes =>
    have scopesIdle : scopes.builder.pending = none := by simpa [builder, current] using idle
    simp only [openMember, current]
    split
    · obtain ⟨-, reported⟩ := (EndsQuietly.refl idle).report
        (List.forall_mem_append.mpr ⟨unfinished_quiet scopesIdle, others⟩)
      exact ⟨rfl, reported⟩
    · exact .refl idle
    · exact .refl idle

theorem boundary_quiet (idle : state.builder.pending = none) (pos : Position)
    (boundary : Boundary) : state.EndsQuietly (state.boundary pos boundary).1 := by
  cases boundary with
  | closing word => exact closing_quiet idle word
  | pou header =>
    cases current : state.current with
    | none => exact ⟨by simp [State.boundary, openPou, current, setScopes, builder], [],
        by simp [State.boundary, openPou, current, setScopes], by simp⟩
    | some scopes => simpa [State.boundary, openPou, current] using EndsQuietly.refl idle
  | method header =>
    refine openMember_quiet idle _ ?_
    intro diagnostic member
    obtain ⟨text, rfl⟩ := MethodHeader.mem_invalidParameters member
    rfl
  | property header => exact openMember_quiet idle _ (by simp)
  | varSection header =>
    cases current : state.current with
    | none => simpa [State.boundary, openSection, current] using EndsQuietly.refl idle
    | some scopes =>
      simp only [State.boundary, openSection, current]
      have quiet : ∀ diagnostic ∈ (scopes.varSection.map OpenSection.unclosed).toList,
          diagnostic.problem.isUnterminated = false := by
        intro diagnostic member
        simp only [Option.mem_toList, Option.map_eq_some_iff] at member
        obtain ⟨opened, -, rfl⟩ := member
        rfl
      obtain ⟨-, reported⟩ := (EndsQuietly.refl idle).report quiet
      exact ⟨by simpa [builder, current, setScopes] using idle, reported⟩

theorem closing_problem_quiet {word : ClosingWord} {problem : Problem}
    (refused : (state.closing word).2 = some problem) : problem.isUnterminated = false := by
  unfold closing at refused
  split at refused
  · cases refused
    rfl
  · cases word with
    | var | get | set | pou kind =>
      simp only at refused
      split at refused <;> cases refused
      rfl
    | method | property =>
      simp only at refused
      split at refused
      · cases refused
        rfl
      · split at refused <;> cases refused
        rfl

theorem openMember_problem_quiet {member : Member} {problems : List Diagnostic} {problem : Problem}
    (refused : (state.openMember member problems).2 = some problem) :
    problem.isUnterminated = false := by
  unfold openMember at refused
  split at refused
  · split at refused <;> cases refused <;> rfl
  · cases refused
    rfl

theorem boundary_problem_quiet {pos : Position} {boundary : Boundary} {problem : Problem}
    (refused : (state.boundary pos boundary).2 = some problem) :
    problem.isUnterminated = false := by
  cases boundary with
  | closing word => exact closing_problem_quiet refused
  | method header => exact openMember_problem_quiet refused
  | property header => exact openMember_problem_quiet refused
  | pou header =>
    simp only [State.boundary, openPou] at refused
    split at refused <;> cases refused
    rfl
  | varSection header =>
    simp only [State.boundary, openSection] at refused
    split at refused <;> cases refused
    rfl

theorem ends_of_boundary {pending : Pending} {boundary : Boundary}
    (waits : state.builder.pending = some pending) (read : step.boundary? = some boundary) :
    state.Ends pending (state.step step) := by
  have dropped : state.dropPending.builder.pending = none := by
    cases current : state.current with
    | none => simp [builder, current] at waits
    | some scopes =>
      rw [dropPending_of_open current]
      rfl
  have reported : state.dropPending.document.diagnostics =
      state.document.diagnostics ++ [pending.unterminated] := by
    rw [dropPending_eq]
    simp [report, withoutPending, Builder.dropPending, waits]
  have problems : ∀ diagnostic ∈
      ((state.dropPending.boundary step.pos boundary).2.map (·.at step.start)).toList,
      diagnostic.problem.isUnterminated = false := by
    intro diagnostic member
    simp only [Option.mem_toList, Option.map_eq_some_iff] at member
    obtain ⟨problem, refused, rfl⟩ := member
    exact boundary_problem_quiet refused
  have settled := (boundary_quiet dropped step.pos boundary).report problems
  rw [step_of_boundary state read]
  obtain ⟨idle, others, added, quietly⟩ := settled
  exact ⟨idle, others, by rw [settle, added, reported]; simp, quietly⟩

theorem step_of_accessor {pou : OpenPou} (current : state.current = some scopes)
    (noSection : scopes.varSection = none) (noBoundary : step.boundary? = none)
    (accessor : (Accessor.read? step.text).bind scopes.pou.withAccessor? = some pou) :
    state.step step = state.setScopes { scopes with pou } := by
  have nonempty : step.text ≠ [] := by
    intro blank
    have nothing : Accessor.read? [] = none := by decide
    rw [blank, nothing] at accessor
    cases accessor
  rw [step_of_content state nonempty noBoundary, content_eq_take]
  simp only [take, current, noSection, accessor]
  simp [settle, report, setScopes, Document.report]

end State

open State in
theorem ends_iff_boundary {done : List Step} {step : Step} {pending : Pending}
    (waits : (stateAfter done).builder.pending = some pending)
    (structural : (stateAfter done).isStructural step = true) :
    (stateAfter done).Ends pending ((stateAfter done).step step) ↔
      step.boundary?.isSome = true := by
  constructor
  · intro ends
    by_contra noBoundary
    obtain ⟨scopes, current⟩ : ∃ scopes, (stateAfter done).current = some scopes := by
      cases current : (stateAfter done).current with
      | none => simp [builder, current] at waits
      | some scopes => exact ⟨scopes, rfl⟩
    have waiting : scopes.builder.pending = some pending := by
      simpa [builder, current] using waits
    have noSection : scopes.varSection = none := by
      by_contra isOpen
      have idle := (sound_opened done scopes current).1.idle isOpen
      rw [waiting] at idle
      cases idle
    have accessor : ((Accessor.read? step.text).bind scopes.pou.withAccessor?).isSome = true := by
      simpa [isStructural, noBoundary, pou?, current] using structural
    obtain ⟨pou, amended⟩ := Option.isSome_iff_exists.mp accessor
    have result := step_of_accessor current noSection
      (Option.not_isSome_iff_eq_none.mp noBoundary) amended
    have idle := ends.idle
    rw [result, builder, setScopes] at idle
    simp [waiting] at idle
  · intro isBoundary
    obtain ⟨boundary, read⟩ := Option.isSome_iff_exists.mp isBoundary
    exact ends_of_boundary waits read

def getterSource : String :=
  "FUNCTION_BLOCK F\nPROPERTY P : INT\nGET\nP := a +\n"

def getterState : State :=
  stateAfter (steps getterSource)

def wordStep (word : String) : Step :=
  ⟨⟨word.toList, ⟨word.toList, []⟩, 5⟩, ⟨word.toList, 0, word.length⟩, none⟩

theorem getterState_waits :
    getterState.builder.pending = some ⟨"P := a +".toList, ⟨4, 1⟩⟩ ∧
      getterState.isStructural (wordStep "END_GET") = true ∧
      getterState.isStructural (wordStep "SET") = true ∧
      (getterState.step (wordStep "SET")).builder.pending ≠ none := by
  decide +kernel

theorem getterState_ends_at_endGet :
    getterState.builder.pending = some ⟨"P := a +".toList, ⟨4, 1⟩⟩ ∧
      getterState.isStructural (wordStep "END_GET") = true ∧
      getterState.Ends ⟨"P := a +".toList, ⟨4, 1⟩⟩ (getterState.step (wordStep "END_GET")) := by
  obtain ⟨waits, structural, -⟩ := getterState_waits
  exact ⟨waits, structural, (ends_iff_boundary waits structural).mpr (by decide +kernel)⟩

-- The word that ends a getter may be left out. Then the assignments on the two sides of the SET
-- become one, and nothing is reported.
theorem getterState_joined_across_set :
    (getterState.builder.pending = some ⟨"P := a +".toList, ⟨4, 1⟩⟩ ∧
      getterState.isStructural (wordStep "SET") = true ∧
      ¬ getterState.Ends ⟨"P := a +".toList, ⟨4, 1⟩⟩ (getterState.step (wordStep "SET"))) ∧
    (parse (getterSource ++ "SET\nb := P;\nEND_PROPERTY\nEND_FUNCTION_BLOCK\n")).diagnostics = [] ∧
    (parse (getterSource ++ "SET\nb := P;\nEND_PROPERTY\nEND_FUNCTION_BLOCK\n")).functionBlocks.map
        (fun block => block.properties.map fun property => openLines [] property.body.statements) =
      [[[.assignment "P" "a + b := P"]]] := by
  obtain ⟨waits, -, structural, waitsOn⟩ := getterState_waits
  refine ⟨⟨waits, structural, fun ends => waitsOn ends.idle⟩, ?_⟩
  decide +kernel

end StructuredText
