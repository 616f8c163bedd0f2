import StructuredText.Proofs.EndOfSource
import StructuredText.Proofs.ViewedReading

set_option autoImplicit false

namespace StructuredText

def Document.unreported (document : Document) : Document :=
  { document with diagnostics := [] }

@[simp] theorem Document.unreported_report (document : Document) (diagnostics : List Diagnostic) :
    (document.report diagnostics).unreported = document.unreported := rfl

theorem Document.unreported_addPou (document : Document) (pou : OpenPou) :
    (document.addPou pou).unreported = document.unreported.addPou pou := by
  unfold addPou
  cases pou.closeMember <;> rfl

def Step.vars (step : Step) (scope : Scope) : List Variable :=
  match Declaration.read? step.text with
  | none => []
  | some declaration =>
    declaration.names.map fun name =>
      { name, type := declaration.type, scope, initialValue := declaration.initialValue,
        comment := step.comment, line := step.line.number }

namespace Scopes

def withVariables (scopes : Scopes) (header : SectionHeader) (step : Step) : OpenPou :=
  match header.scope? with
  | none => scopes.pou
  | some scope => (step.vars scope).foldl (fun pou v => pou.addVariable v) scopes.pou

def withCode (scopes : Scopes) (step : Step) : OpenPou :=
  let outcome := scopes.builder.feed scopes.pou.body.statements step.text step.pos
  let pou := scopes.pou.setBody { scopes.pou.body with statements := outcome.root }
  match outcome.result with
  | .ok (.unsupported text) =>
    (State.recordUnsupported { scopes with pou, builder := outcome.builder } text step.line).pou
  | _ => pou

structure TakesAsCode (scopes : Scopes) (step : Step) : Prop where
  nonempty : step.text ≠ []
  noBoundary : step.boundary? = none
  noSection : scopes.varSection = none
  noAccessor : (Accessor.read? step.text).bind scopes.pou.withAccessor? = none

inductive Revises (scopes : Scopes) (step : Step) : Option OpenPou → Prop where
  | blank (blank : step.text = []) : Revises scopes step none
  -- A closing word, a section header, or a header out of place.
  | boundary {boundary : Boundary} (read : step.boundary? = some boundary)
    (noMember : ∀ block, scopes.pou = .functionBlock block none → boundary.member? = none) :
    Revises scopes step none
  | method {header : MethodHeader} {block : FunctionBlock}
    (read : step.boundary? = some (.method header))
    (owner : scopes.pou = .functionBlock block none) :
    Revises scopes step (some (.functionBlock block (some (.method
      { name := header.name, returnType := header.returnType
        parameters := header.inputs step.pos.line, pos := step.pos }))))
  | property {header : PropertyHeader} {block : FunctionBlock}
    (read : step.boundary? = some (.property header))
    (owner : scopes.pou = .functionBlock block none) :
    Revises scopes step (some (.functionBlock block (some (.property
      { name := header.name, type := header.type, pos := step.pos }))))
  | declaration {opened : OpenSection} (noBoundary : step.boundary? = none)
    (inSection : scopes.varSection = some opened) :
    Revises scopes step (some (scopes.withVariables opened.header step))
  | accessor {pou : OpenPou} (noBoundary : step.boundary? = none)
    (noSection : scopes.varSection = none)
    (amended : (Accessor.read? step.text).bind scopes.pou.withAccessor? = some pou) :
    Revises scopes step (some pou)
  | code (code : scopes.TakesAsCode step) : Revises scopes step (some (scopes.withCode step))

end Scopes

namespace State

def freeBlock? (state : State) : Option FunctionBlock :=
  match state.pou? with
  | some (.functionBlock block none) => some block
  | _ => none

def opening? (state : State) (pos : Position) : Boundary → Option OpenPou
  | .pou header => if state.pou?.isNone then some (.ofHeader header pos) else none
  | .method header =>
    let method : Method :=
      { name := header.name, returnType := header.returnType, parameters := header.inputs pos.line,
        pos }
    state.freeBlock?.map fun block => .functionBlock block (some (.method method))
  | .property header =>
    let property : Property := { name := header.name, type := header.type, pos }
    state.freeBlock?.map fun block => .functionBlock block (some (.property property))
  | .closing _ | .varSection _ => none

def amending? (state : State) (step : Step) : Option OpenPou :=
  state.current.map fun scopes =>
    match scopes.varSection, (Accessor.read? step.text).bind scopes.pou.withAccessor? with
    | some opened, _ => scopes.withVariables opened.header step
    | none, some pou => pou
    | none, none => scopes.withCode step

def revision? (state : State) (step : Step) : Option OpenPou :=
  if step.text = [] then none
  else
    match step.boundary? with
    | some boundary => state.opening? step.pos boundary
    | none => state.amending? step

variable {state : State} {scopes : Scopes}

theorem model_of_open (current : state.current = some scopes) :
    state.model = state.document.addPou scopes.pou := by
  simp [model, current]

@[simp] theorem model_report (diagnostics : List Diagnostic) :
    (state.report diagnostics).model = state.model.report diagnostics := by
  obtain ⟨document, current⟩ := state
  cases current with
  | none => rfl
  | some scopes => exact Document.addPou_report document scopes.pou diagnostics

theorem unreported_settle (outcome : State × Option Problem) (start : Position) :
    (settle outcome start).model.unreported = outcome.1.model.unreported := by
  rw [settle, model_report, Document.unreported_report]

theorem unreported_dropPending (state : State) :
    state.dropPending.model.unreported = state.model.unreported := by
  cases current : state.current with
  | none => simp [dropPending, current]
  | some scopes =>
    rw [dropPending_of_open current, model_report, Document.unreported_report,
      model_of_open current]
    rfl

theorem unreported_closing (word : ClosingWord) :
    (state.closing word).1.model.unreported = state.model.unreported := by
  cases current : state.current with
  | none => simp [closing, current]
  | some scopes =>
    cases word with
    | var =>
      simp only [closing, current]
      split
      · rw [model_of_open current]
        rfl
      · rfl
    | get | set =>
      simp only [closing, current]
      split <;> rfl
    | pou kind =>
      simp only [closing, current]
      split
      · rw [model_of_open current]
        simp [closePou, current, model]
      · rfl
    | method | property =>
      simp only [closing, current]
      split
      · rfl
      · split
        · rw [model_report, Document.unreported_report, model_of_open current]
          simp [model, setScopes]
        · rfl

theorem unreported_openMember (member : Member) (problems : List Diagnostic) :
    (state.openMember member problems).1.model.unreported =
      ((state.freeBlock?.map fun block => OpenPou.functionBlock block (some member)).elim
        state.model state.document.addPou).unreported := by
  cases current : state.current with
  | none => simp [openMember, freeBlock?, pou?, current]
  | some scopes =>
    obtain ⟨pou, varSection, builder, copiedLine⟩ := scopes
    rcases pou with ⟨block, _ | inner⟩ | program | function <;>
      simp [openMember, freeBlock?, pou?, current, setScopes, report, model, Document.addPou_report]

theorem unreported_boundary (pos : Position) (boundary : Boundary) :
    (state.boundary pos boundary).1.model.unreported =
      ((state.opening? pos boundary).elim state.model state.document.addPou).unreported := by
  cases boundary with
  | closing word => exact unreported_closing word
  | pou header =>
    cases current : state.current with
    | none => simp [State.boundary, openPou, opening?, pou?, current, setScopes, model]
    | some scopes => simp [State.boundary, openPou, opening?, pou?, current]
  | method header => exact unreported_openMember _ _
  | property header => exact unreported_openMember _ _
  | varSection header =>
    cases current : state.current with
    | none => simp [State.boundary, openSection, opening?, current]
    | some scopes =>
      simp [State.boundary, openSection, opening?, current, setScopes, report, model,
        Document.addPou_report]

theorem unreported_declare (current : state.current = some scopes) (header : SectionHeader)
    (step : Step) :
    (state.declare scopes header step.text step.line.number step.comment).1.model.unreported =
      (state.document.addPou (scopes.withVariables header step)).unreported := by
  unfold declare Scopes.withVariables
  cases header.scope? with
  | none => exact congrArg Document.unreported (model_of_open current)
  | some scope =>
    cases read : Declaration.read? step.text with
    | none => simp [Step.vars, read, model_of_open current]
    | some declaration => simp [Step.vars, read, List.foldl_map, model, setScopes]

theorem unreported_setScopes (diagnostics : List Diagnostic) (next : Scopes) :
    ((state.report diagnostics).setScopes next).model.unreported =
      (state.document.addPou next.pou).unreported := by
  have model : ((state.report diagnostics).setScopes next).model =
      (state.document.report diagnostics).addPou next.pou := rfl
  rw [model, Document.addPou_report, Document.unreported_report]

theorem unreported_accept (scopes : Scopes) (step : Step) :
    (state.accept scopes (scopes.builder.feed scopes.pou.body.statements step.text step.pos)
        step.line.number (String.ofList (trim step.line.raw) ++ "\n")).1.model.unreported =
      (state.document.addPou (scopes.withCode step)).unreported := by
  unfold accept Scopes.withCode
  generalize scopes.builder.feed scopes.pou.body.statements step.text step.pos = outcome
  simp only
  cases outcome.result with
  | error problem => exact unreported_setScopes ..
  | ok fed =>
    cases fed with
    | statement => exact unreported_setScopes ..
    | pending => exact unreported_setScopes ..
    | unsupported text => exact unreported_setScopes ..

theorem unreported_content (step : Step) :
    (state.content step.text step.pos step.line step.comment).1.model.unreported =
      ((state.amending? step).elim state.model state.document.addPou).unreported := by
  cases current : state.current with
  | none => simp [content, amending?, current]
  | some scopes =>
    rw [content_eq_take]
    simp only [take, amending?, current, Option.map_some, Option.elim_some]
    cases scopes.varSection with
    | some opened => exact unreported_declare current opened.header step
    | none =>
      cases (Accessor.read? step.text).bind scopes.pou.withAccessor? with
      | some pou => rfl
      | none => exact unreported_accept scopes step

theorem opening?_dropPending (pos : Position) (boundary : Boundary) :
    state.dropPending.opening? pos boundary = state.opening? pos boundary := by
  have pou : state.dropPending.pou? = state.pou? := by
    cases current : state.current with
    | none => simp [dropPending, current]
    | some scopes => simp [dropPending_of_open current, pou?, report, setScopes, current]
  cases boundary <;> simp [opening?, freeBlock?, pou]

theorem unreported_step (step : Step) :
    (state.step step).model.unreported =
      ((state.revision? step).elim state.model state.document.addPou).unreported := by
  by_cases blank : step.text = []
  · simp [step_of_blank state blank, revision?, blank]
  · cases read : step.boundary? with
    | none =>
      rw [step_of_content state blank read, unreported_settle, unreported_content, revision?,
        if_neg blank, read]
    | some boundary =>
      have pous : state.dropPending.document.unreported = state.document.unreported := by
        simp only [dropPending]
        split <;> rfl
      have revises : state.revision? step = state.opening? step.pos boundary := by
        rw [revision?, if_neg blank, read]
      rw [step_of_boundary state read, unreported_settle, unreported_boundary, revises,
        opening?_dropPending]
      cases state.opening? step.pos boundary with
      | none => exact unreported_dropPending state
      | some pou =>
        simp only [Option.elim_some, Document.unreported_addPou, pous]

theorem revision_of_open (current : state.current = some scopes) (step : Step) :
    scopes.Revises step (state.revision? step) := by
  have pou : state.pou? = some scopes.pou := by simp [pou?, current]
  unfold revision?
  split
  · exact .blank ‹_›
  · rename_i nonempty
    cases read : step.boundary? with
    | some boundary =>
      have kept (noMember : ∀ block, scopes.pou = .functionBlock block none →
          boundary.member? = none) : scopes.Revises step none := .boundary read noMember
      cases boundary with
      | closing word | varSection header => exact kept fun _ _ => rfl
      | pou header =>
        simp only [opening?, pou]
        exact kept fun _ _ => rfl
      | method header =>
        rcases owner : scopes.pou with ⟨block, _ | member⟩ | program | function
        · simp only [opening?, freeBlock?, pou, owner]
          exact .method read owner
        all_goals
          simp only [opening?, freeBlock?, pou, owner]
          exact kept (by simp [owner])
      | property header =>
        rcases owner : scopes.pou with ⟨block, _ | member⟩ | program | function
        · simp only [opening?, freeBlock?, pou, owner]
          exact .property read owner
        all_goals
          simp only [opening?, freeBlock?, pou, owner]
          exact kept (by simp [owner])
    | none =>
      simp only [amending?, current, Option.map_some]
      cases inSection : scopes.varSection with
      | some opened => exact .declaration read inSection
      | none =>
        cases accessor : (Accessor.read? step.text).bind scopes.pou.withAccessor? with
        | some pou => exact .accessor read inSection accessor
        | none => exact .code ⟨nonempty, read, inSection, accessor⟩

theorem revision_of_closed (closed : state.current = none) (step : Step) :
    state.revision? step = none ∨
      ∃ header, state.revision? step = some (.ofHeader header step.pos) := by
  unfold revision?
  split
  · exact .inl rfl
  · cases step.boundary? with
    | none => exact .inl (by simp [amending?, closed])
    | some boundary =>
      cases boundary with
      | pou header => exact .inr ⟨header, by simp [opening?, pou?, closed]⟩
      | method header | property header => exact .inl (by simp [opening?, freeBlock?, pou?, closed])
      | closing word | varSection header => exact .inl rfl

end State

end StructuredText
