import StructuredText.Proofs.OrderedReading
import StructuredText.Proofs.VariableLists

set_option autoImplicit false

namespace StructuredText

namespace OpenPou

variable {pou other : OpenPou}

def Above (pou other : OpenPou) : Prop :=
  UpTo other.pos.line pou.marks

theorem Above.line_le (above : pou.Above other) : pou.pos.line ≤ other.pos.line :=
  above _ (pou.marks_pos (List.Subset.refl _) (by simp [Position.marks]))

@[simp] theorem pos_closeMember (pou : OpenPou) : pou.closeMember.pos = pou.pos := by
  rcases pou with ⟨block, _ | (method | property)⟩ | program | function <;> rfl

end OpenPou

structure Document.Stacked (document : Document) : Prop where
  each : ∀ kind, (document.pous kind).Pairwise OpenPou.Above
  all : ∀ one other, ∀ pou ∈ document.pous one, ∀ next ∈ document.pous other,
    pou.pos.line < next.pos.line → pou.Above next

structure State.Stacked (state : State) : Prop where
  document : state.document.Stacked
  current : ∀ scopes ∈ state.current, ∀ kind, ∀ pou ∈ state.document.pous kind,
    pou.Above scopes.pou

namespace Document.Stacked

variable {document other : Document}

theorem of_pous (stacked : document.Stacked) (same : other.pous = document.pous) : other.Stacked :=
  ⟨same ▸ stacked.each, same ▸ stacked.all⟩

theorem unreported_iff : document.unreported.Stacked ↔ document.Stacked := by
  have same : document.unreported.pous = document.pous := by
    funext kind
    cases kind <;> rfl
  exact ⟨fun stacked => stacked.of_pous same.symm, fun stacked => stacked.of_pous same⟩

theorem pous_cases {pou : OpenPou} {kind : PouKind} {next : OpenPou}
    (member : next ∈ (document.addPou pou).pous kind) :
    next ∈ document.pous kind ∨ next = pou.closeMember := by
  by_cases same : kind = pou.kind
  · subst same
    rw [pous_addPou] at member
    simpa using member
  · rw [pous_addPou_of_ne _ _ same] at member
    exact .inl member

theorem addPou (stacked : document.Stacked) {pou : OpenPou}
    (above : ∀ kind, ∀ earlier ∈ document.pous kind, earlier.Above pou) :
    (document.addPou pou).Stacked := by
  have isAbove (kind : PouKind) :
      ∀ earlier ∈ document.pous kind, earlier.Above pou.closeMember := by
    intro earlier member
    rw [OpenPou.Above, OpenPou.pos_closeMember]
    exact above kind earlier member
  constructor
  · intro kind
    by_cases same : kind = pou.kind
    · subst same
      rw [pous_addPou, List.pairwise_append]
      exact ⟨stacked.each _, List.pairwise_singleton _ _, by simpa using isAbove pou.kind⟩
    · rw [pous_addPou_of_ne _ _ same]
      exact stacked.each kind
  · intro one other first isFirst second isSecond earlier
    rcases pous_cases isSecond with secondOld | rfl
    · rcases pous_cases isFirst with firstOld | rfl
      · exact stacked.all _ _ _ firstOld _ secondOld earlier
      · have := (isAbove other second secondOld).line_le
        omega
    · rcases pous_cases isFirst with firstOld | rfl
      · exact isAbove one first firstOld
      · omega

end Document.Stacked

namespace State.Stacked

variable {state : State} {step : Step} {known : List Mark} (stacked : state.Stacked)

include stacked

theorem model : state.model.Stacked := by
  cases current : state.current with
  | none => simpa [State.model, current] using stacked.document
  | some scopes =>
    rw [State.model_of_open current]
    exact stacked.document.addPou (stacked.current scopes current)

variable (marked : state.Marked known) (early : UpTo step.line.number known)

include marked early in
theorem step_of_closed (closed : state.current = none) : (state.step step).Stacked := by
  obtain ⟨pous, none | ⟨header, -, opens⟩⟩ := State.step_of_closed closed step
  · exact ⟨stacked.document.of_pous pous, by simp [none]⟩
  · refine ⟨stacked.document.of_pous pous, ?_⟩
    rw [opens, pous]
    rintro _ ⟨⟩ kind pou member number named
    rw [OpenPou.pos_ofHeader]
    exact early number (marked.document (Document.marks_of_mem member named))

theorem step_of_open {scopes : Scopes} (current : state.current = some scopes) :
    (state.step step).Stacked := by
  have above := stacked.current scopes current
  rcases State.step_of_open current step with closed | ⟨pous, next, nextCurrent, change⟩
  · refine ⟨?_, by simp [closed]⟩
    have isModel : (state.step step).model = (state.step step).document := by
      simp [State.model, closed]
    rw [← Document.Stacked.unreported_iff, ← isModel, State.unreported_step,
      Document.Stacked.unreported_iff]
    have revises := State.revision_of_open current step
    cases revision : state.revision? step with
    | none => exact stacked.model
    | some next =>
      rw [revision] at revises
      refine stacked.document.addPou fun kind pou member => ?_
      rw [OpenPou.Above, (Scopes.header_of_revises revises).2]
      exact above kind pou member
  · refine ⟨stacked.document.of_pous pous, ?_⟩
    rw [nextCurrent, pous]
    rintro _ ⟨⟩ kind pou member
    rw [OpenPou.Above, change.kind_name_pos.2.2]
    exact above kind pou member

end State.Stacked

theorem State.stacked_stateAfter {done : List Step} (ordered : InLineOrder done) :
    (stateAfter done).Stacked := by
  induction done using List.reverseRecOn with
  | nil =>
    have nothing (kind : PouKind) : (State.document {}).pous kind = [] := by cases kind <;> rfl
    exact ⟨⟨by simp [stateAfter, nothing], by simp [stateAfter, nothing]⟩, by simp [stateAfter]⟩
  | append_singleton done step ih =>
    obtain ⟨earlier, early⟩ := ordered.concat
    rw [stateAfter_concat]
    cases current : (stateAfter done).current with
    | none =>
      exact (ih earlier).step_of_closed (marked_stateAfter (List.Subset.refl _)) early current
    | some scopes => exact (ih earlier).step_of_open current

theorem stacked_parse (source : String) : (parse source).Stacked := by
  rw [← Document.Stacked.unreported_iff, unreported_parse, Document.Stacked.unreported_iff]
  exact (State.stacked_stateAfter (inLineOrder_stepsFrom 0 none _)).model

end StructuredText
