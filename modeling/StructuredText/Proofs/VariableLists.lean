import StructuredText.Proofs.DeclarationText
import StructuredText.Proofs.ModelChange
import StructuredText.Proofs.StructuralDiagnostics

set_option autoImplicit false

namespace StructuredText

/-- The lists of variables that a POU can have. Methods are counted from zero. -/
inductive VariablePart where
  | vars
  | parameters
  | locals
  | methodParameters (method : Nat)
  | methodLocals (method : Nat)
  deriving DecidableEq

structure VariableList where
  kind : PouKind
  number : Nat
  part : VariablePart
  deriving DecidableEq

def entriesOf {κ : Type} [DecidableEq κ] (key : κ) (entries : List (κ × Variable)) :
    List Variable :=
  entries.filterMap fun entry => if entry.1 = key then some entry.2 else none

namespace OpenPou

def methods : OpenPou → List Method
  | functionBlock block (some (.method m)) => block.methods ++ [m]
  | functionBlock block _ => block.methods
  | program _ | function _ => []

def vars (pou : OpenPou) : VariablePart → List Variable
  | .vars =>
    match pou with
    | functionBlock block _ => block.vars
    | program p => p.vars
    | function _ => []
  | .parameters =>
    match pou with
    | function f => f.parameters
    | functionBlock .. | program _ => []
  | .locals =>
    match pou with
    | function f => f.locals
    | functionBlock .. | program _ => []
  | .methodParameters method => (pou.methods.map Method.parameters)[method]?.getD []
  | .methodLocals method => (pou.methods.map Method.locals)[method]?.getD []

def partFor : OpenPou → Scope → VariablePart
  | functionBlock block (some (.method _)), .temp => .methodLocals block.methods.length
  | functionBlock .., _ | program _, _ => .vars
  | function _, .input | function _, .output | function _, .inOut => .parameters
  | function _, .var | function _, .temp => .locals

end OpenPou

def Document.vars (document : Document) (list : VariableList) : List Variable :=
  ((document.pous list.kind)[list.number]?.map (·.vars list.part)).getD []

namespace Scopes

def declared (scopes : Scopes) (step : Step) : List (VariablePart × Variable) :=
  match scopes.varSection.bind (·.header.scope?) with
  | none => []
  | some scope => (step.vars scope).map (scopes.pou.partFor scope, ·)

def inputs (scopes : Scopes) (step : Step) : List (VariablePart × Variable) :=
  match step.boundary?, scopes.pou with
  | some (.method header), .functionBlock block none =>
    (header.inputs step.pos.line).map (.methodParameters block.methods.length, ·)
  | _, _ => []

end Scopes

namespace State

-- The variables that a fragment stores, each with its list. The open POU is the last of its kind.
def stored (state : State) (step : Step) : List (VariableList × Variable) :=
  match state.current with
  | none => []
  | some scopes =>
    let number := (state.document.pous scopes.pou.kind).length
    (scopes.declared step ++ scopes.inputs step).map fun entry =>
      (⟨scopes.pou.kind, number, entry.1⟩, entry.2)

def storedBy (state : State) : List Step → List (VariableList × Variable)
  | [] => []
  | step :: rest => state.stored step ++ (state.step step).storedBy rest

end State

section Entries

variable {κ : Type} [DecidableEq κ]

@[simp] theorem entriesOf_nil (key : κ) : entriesOf key [] = [] := rfl

@[simp] theorem entriesOf_append (key : κ) (before after : List (κ × Variable)) :
    entriesOf key (before ++ after) = entriesOf key before ++ entriesOf key after :=
  List.filterMap_append

theorem entriesOf_map (key other : κ) (vs : List Variable) :
    entriesOf key (vs.map (other, ·)) = if other = key then vs else [] := by
  induction vs with
  | nil => simp
  | cons v vs ih =>
    rw [List.map_cons, entriesOf, List.filterMap_cons, ← entriesOf, ih]
    split <;> simp_all

theorem entriesOf_map_list (list : VariableList) (kind : PouKind) (number : Nat)
    (entries : List (VariablePart × Variable)) :
    entriesOf list (entries.map fun entry => (⟨kind, number, entry.1⟩, entry.2)) =
      if list.kind = kind ∧ list.number = number then entriesOf list.part entries else [] := by
  obtain ⟨listKind, listNumber, part⟩ := list
  simp only [entriesOf, List.filterMap_map, Function.comp_def, VariableList.mk.injEq]
  by_cases same : listKind = kind ∧ listNumber = number
  · obtain ⟨rfl, rfl⟩ := same
    simp
  · have other (entry : VariablePart × Variable) :
        ¬ (kind = listKind ∧ number = listNumber ∧ entry.1 = part) :=
      fun ⟨sameKind, sameNumber, _⟩ => same ⟨sameKind.symm, sameNumber.symm⟩
    simp [same, other]

end Entries

theorem getElem?_concat {α : Type} (xs : List α) (last : α) (n : Nat) :
    (xs ++ [last])[n]? = if n = xs.length then some last else xs[n]? := by
  rcases lt_trichotomy n xs.length with before | rfl | after
  · rw [List.getElem?_append_left before, if_neg (by omega)]
  · simp
  · have beyond : (xs ++ [last]).length ≤ n := by
      rw [List.length_append, List.length_singleton]
      omega
    rw [List.getElem?_eq_none beyond, List.getElem?_eq_none (by omega), if_neg (by omega)]

theorem getD_concat (lists : List (List Variable)) (last : List Variable) (n : Nat) :
    (lists ++ [last])[n]?.getD [] =
      lists[n]?.getD [] ++ if lists.length = n then last else [] := by
  rw [getElem?_concat]
  by_cases isLast : n = lists.length
  · simp [isLast]
  · simp [isLast, Ne.symm isLast]

namespace OpenPou

variable (pou : OpenPou)

theorem kind_of_identity {one other : OpenPou} (same : one.identity = other.identity) :
    one.kind = other.kind := by
  rw [← identity_kind, same, identity_kind]

theorem kind_addVariable (v : Variable) : (pou.addVariable v).kind = pou.kind :=
  kind_of_identity (pou.addVariable_same v).1

theorem partFor_addVariable (v : Variable) : (pou.addVariable v).partFor = pou.partFor := by
  funext scope
  rcases pou with ⟨block, _ | (method | property)⟩ | program | function
  · rfl
  · simp only [addVariable]
    split <;> cases scope <;> rfl
  · rfl
  · rfl
  · simp only [addVariable]
    split <;> cases scope <;> rfl

theorem vars_addVariable (v : Variable) (part : VariablePart) :
    (pou.addVariable v).vars part =
      pou.vars part ++ if pou.partFor v.scope = part then [v] else [] := by
  rcases pou with ⟨block, _ | (method | property)⟩ | program | function
  · cases part <;> simp [addVariable, FunctionBlock.addVariable, vars, methods, partFor]
  · cases isScope : v.scope with
    | temp =>
      cases part with
      | methodLocals n =>
        simp only [addVariable, isScope, if_true, vars, methods, partFor, List.map_append,
          List.map_singleton, getD_concat, List.length_map, VariablePart.methodLocals.injEq]
        split <;> simp
      | vars | parameters | locals | methodParameters n =>
        simp [addVariable, vars, methods, partFor, isScope]
    | input | output | inOut | var =>
      cases part <;> simp [addVariable, FunctionBlock.addVariable, vars, methods, partFor, isScope]
  · cases part <;> simp [addVariable, FunctionBlock.addVariable, vars, methods, partFor]
  · cases part <;> simp [addVariable, vars, methods, partFor]
  · cases isScope : v.scope <;> cases part <;>
      simp [addVariable, vars, methods, partFor, isScope, Scope.isParameter]

theorem vars_setBody (body : Body) : (pou.setBody body).vars = pou.vars := by
  funext part
  rcases pou with ⟨block, _ | (method | property)⟩ | program | function <;>
    cases part <;> simp [setBody, vars, methods, Member.setBody]

theorem vars_setMember {pou : OpenPou} {member : Member} (isOpen : pou.member? = some member)
    (text : String) :
    (pou.setMember (some (member.addImplementation text))).vars = pou.vars := by
  funext part
  cases pou with
  | functionBlock block inner =>
    obtain rfl : inner = some member := isOpen
    cases member <;> cases part <;> simp [setMember, vars, methods, Member.addImplementation]
  | program p => cases isOpen
  | function f => cases isOpen

theorem vars_closeMember : pou.closeMember.vars = pou.vars := by
  funext part
  rcases pou with ⟨block, _ | (method | property)⟩ | program | function <;>
    cases part <;> simp [closeMember, vars, methods, FunctionBlock.addMember]

theorem foldl_addVariable (scope : Scope) {vs : List Variable}
    (inScope : ∀ v ∈ vs, v.scope = scope) :
    (vs.foldl (fun pou v => pou.addVariable v) pou).kind = pou.kind ∧
      ∀ part, (vs.foldl (fun pou v => pou.addVariable v) pou).vars part =
        pou.vars part ++ entriesOf part (vs.map (pou.partFor scope, ·)) := by
  induction vs generalizing pou with
  | nil => simp
  | cons v vs ih =>
    obtain ⟨first, others⟩ := List.forall_mem_cons.mp inScope
    obtain ⟨kind, parts⟩ := ih (pou.addVariable v) others
    refine ⟨kind.trans (pou.kind_addVariable v), fun part => ?_⟩
    rw [List.foldl_cons, parts, vars_addVariable, partFor_addVariable, first, entriesOf_map,
      entriesOf_map, List.append_assoc]
    split <;> rfl

end OpenPou

namespace Document

variable (document : Document) (pou : OpenPou)

theorem pous_addPou_of_ne {kind : PouKind} (other : kind ≠ pou.kind) :
    (document.addPou pou).pous kind = document.pous kind := by
  rcases pou with ⟨block, _ | member⟩ | program | function <;>
    cases kind <;> simp_all [addPou, pous, OpenPou.kind, OpenPou.closeMember]

theorem vars_addPou (list : VariableList) :
    (document.addPou pou).vars list =
      if list.kind = pou.kind ∧ list.number = (document.pous pou.kind).length then
        pou.vars list.part
      else document.vars list := by
  obtain ⟨kind, number, part⟩ := list
  simp only [vars]
  by_cases same : kind = pou.kind
  · subst same
    rw [pous_addPou, getElem?_concat]
    by_cases isLast : number = (document.pous pou.kind).length
    · simp [isLast, pou.vars_closeMember]
    · simp [isLast]
  · rw [pous_addPou_of_ne document pou same, if_neg (fun both => same both.1)]

theorem vars_addPou_of_nil (empty : ∀ part, pou.vars part = []) (list : VariableList) :
    (document.addPou pou).vars list = document.vars list := by
  rw [vars_addPou]
  split
  · rename_i place
    rw [empty, vars, place.1, place.2, List.getElem?_eq_none_iff.mpr le_rfl]
    rfl
  · rfl

@[simp] theorem vars_unreported (list : VariableList) :
    document.unreported.vars list = document.vars list := by
  obtain ⟨kind, number, part⟩ := list
  cases kind <;> rfl

@[simp] theorem vars_report (diagnostics : List Diagnostic) (list : VariableList) :
    (document.report diagnostics).vars list = document.vars list := by
  rw [← vars_unreported, unreported_report, vars_unreported]

theorem vars_replace {pou next : OpenPou} {entries : List (VariablePart × Variable)}
    (kind : next.kind = pou.kind)
    (parts : ∀ part, next.vars part = pou.vars part ++ entriesOf part entries)
    (list : VariableList) :
    (document.addPou next).vars list =
      (document.addPou pou).vars list ++ entriesOf list (entries.map fun entry =>
        (⟨pou.kind, (document.pous pou.kind).length, entry.1⟩, entry.2)) := by
  rw [vars_addPou, vars_addPou, kind, entriesOf_map_list]
  split
  · exact parts list.part
  · simp

end Document

theorem Step.scope_vars {step : Step} {scope : Scope} :
    ∀ v ∈ step.vars scope, v.scope = scope := by
  intro v member
  simp only [vars] at member
  split at member
  · cases member
  · obtain ⟨name, -, rfl⟩ := List.mem_map.mp member
    rfl

theorem Step.vars_of_boundary {step : Step} (isBoundary : step.boundary?.isSome = true)
    (scope : Scope) : step.vars scope = [] := by
  rw [vars]
  split
  · rfl
  · rename_i declaration read
    rw [boundary?, Boundary.read?_of_declaration read] at isBoundary
    cases isBoundary

namespace Scopes

variable (scopes : Scopes) (step : Step)

theorem declared_of_boundary (isBoundary : step.boundary?.isSome = true) :
    scopes.declared step = [] := by
  rw [declared]
  split
  · rfl
  · rw [Step.vars_of_boundary isBoundary, List.map_nil]

theorem declared_of_noSection (noSection : scopes.varSection = none) :
    scopes.declared step = [] := by
  simp [declared, noSection]

theorem inputs_of_content (noBoundary : step.boundary? = none) : scopes.inputs step = [] := by
  simp [inputs, noBoundary]

def Gains (entries : List (VariablePart × Variable)) : Option OpenPou → Prop
  | none => entries = []
  | some next =>
    next.kind = scopes.pou.kind ∧
      ∀ part, next.vars part = scopes.pou.vars part ++ entriesOf part entries

theorem gains_withVariables {opened : OpenSection} (inSection : scopes.varSection = some opened) :
    scopes.Gains (scopes.declared step) (scopes.withVariables opened.header step) := by
  unfold withVariables declared
  rw [inSection, Option.bind_some]
  cases opened.header.scope? with
  | none => exact ⟨rfl, by simp⟩
  | some scope => exact scopes.pou.foldl_addVariable scope Step.scope_vars

theorem gains_nil {next : OpenPou} (kind : next.kind = scopes.pou.kind)
    (vars : next.vars = scopes.pou.vars) : scopes.Gains [] next :=
  ⟨kind, by simp [vars]⟩

theorem vars_recordUnsupported (text : List Char) (line : SourceLine) :
    (State.recordUnsupported scopes text line).pou.vars = scopes.pou.vars := by
  simp only [State.recordUnsupported]
  split
  · exact OpenPou.vars_setBody ..
  · rename_i member isOpen
    split
    · exact OpenPou.vars_setBody ..
    · exact (OpenPou.vars_setMember isOpen _).trans (OpenPou.vars_setBody ..)

theorem kind_recordUnsupported (text : List Char) (line : SourceLine) :
    (State.recordUnsupported scopes text line).pou.kind = scopes.pou.kind := by
  obtain ⟨pou, copiedLine, recorded, identity, -⟩ := State.recordUnsupported_same scopes text line
  rw [recorded]
  exact OpenPou.kind_of_identity identity

theorem gains_withCode : scopes.Gains [] (scopes.withCode step) := by
  have kind_setBody (body : Body) : (scopes.pou.setBody body).kind = scopes.pou.kind :=
    OpenPou.kind_of_identity (scopes.pou.identity_setBody body)
  unfold withCode
  generalize scopes.builder.feed scopes.pou.body.statements step.text step.pos = outcome
  simp only
  split
  · exact scopes.gains_nil ((kind_recordUnsupported ..).trans (kind_setBody _))
      ((vars_recordUnsupported ..).trans (OpenPou.vars_setBody ..))
  · exact scopes.gains_nil (kind_setBody _) (OpenPou.vars_setBody ..)

theorem gains_withAccessor {accessor : Accessor} {next : OpenPou}
    (amended : scopes.pou.withAccessor? accessor = some next) : scopes.Gains [] next := by
  rcases owner : scopes.pou with ⟨block, _ | (method | property)⟩ | program | function
  all_goals
    rw [owner] at amended
    cases amended
  exact scopes.gains_nil (by rw [owner]; rfl) (by rw [owner]; rfl)

end Scopes

namespace State

variable {state : State} {scopes : Scopes}

-- A member is opened without variables but for the parameters of a method.
theorem vars_method (block : FunctionBlock) (method : Method) (noLocals : method.locals = [])
    (part : VariablePart) :
    (OpenPou.functionBlock block (some (.method method))).vars part =
      (OpenPou.functionBlock block none).vars part ++
        if .methodParameters block.methods.length = part then method.parameters else [] := by
  cases part <;> simp [OpenPou.vars, OpenPou.methods, getD_concat, noLocals]

theorem vars_property (block : FunctionBlock) (property : Property) :
    (OpenPou.functionBlock block (some (.property property))).vars =
      (OpenPou.functionBlock block none).vars := by
  funext part
  cases part <;> rfl

theorem gains_of_revises {step : Step} {next : Option OpenPou}
    (revises : scopes.Revises step next) :
    scopes.Gains (scopes.declared step ++ scopes.inputs step) next := by
  cases revises with
  | blank blank =>
    have noBoundary : step.boundary? = none := by
      rw [Step.boundary?, blank]
      decide
    have nothing (scope : Scope) : step.vars scope = [] := by
      have undeclared : Declaration.read? [] = none := rfl
      simp [Step.vars, blank, undeclared]
    rw [scopes.inputs_of_content step noBoundary, Scopes.declared]
    split <;> simp [Scopes.Gains, nothing]
  | boundary read noMember =>
    have noInputs : scopes.inputs step = [] := by
      rw [Scopes.inputs]
      split
      · rename_i header block isHeader owner
        obtain rfl := Option.some.inj (read.symm.trans isHeader)
        cases noMember block owner
      · rfl
    rw [scopes.declared_of_boundary step (by simp [read]), noInputs]
    rfl
  | @method header block read owner =>
    have stored : scopes.inputs step =
        (header.inputs step.pos.line).map (.methodParameters block.methods.length, ·) := by
      simp [Scopes.inputs, read, owner]
    rw [scopes.declared_of_boundary step (by simp [read]), stored, List.nil_append]
    refine ⟨by rw [owner]; rfl, fun part => ?_⟩
    rw [owner, entriesOf_map]
    exact vars_method block _ rfl part
  | @property header block read owner =>
    have noInputs : scopes.inputs step = [] := by simp [Scopes.inputs, read]
    rw [scopes.declared_of_boundary step (by simp [read]), noInputs]
    exact scopes.gains_nil (by rw [owner]; rfl) (by rw [owner]; exact vars_property block _)
  | declaration noBoundary inSection =>
    rw [scopes.inputs_of_content step noBoundary, List.append_nil]
    exact scopes.gains_withVariables step inSection
  | accessor noBoundary noSection amended =>
    rw [scopes.inputs_of_content step noBoundary, scopes.declared_of_noSection step noSection]
    obtain ⟨_, -, amended⟩ := Option.bind_eq_some_iff.mp amended
    exact scopes.gains_withAccessor amended
  | code code =>
    rw [scopes.inputs_of_content step code.noBoundary,
      scopes.declared_of_noSection step code.noSection]
    exact scopes.gains_withCode step

theorem vars_ofHeader (header : PouHeader) (pos : Position) (part : VariablePart) :
    (OpenPou.ofHeader header pos).vars part = [] := by
  cases kind : header.kind <;> cases part <;>
    simp [OpenPou.ofHeader, kind, OpenPou.vars, OpenPou.methods]

theorem vars_step (state : State) (step : Step) (list : VariableList) :
    (state.step step).model.vars list =
      state.model.vars list ++ entriesOf list (state.stored step) := by
  rw [← Document.vars_unreported, unreported_step, Document.vars_unreported]
  cases current : state.current with
  | none =>
    have model : state.model = state.document := by simp [State.model, current]
    rw [stored, current, entriesOf_nil, List.append_nil, model]
    rcases revision_of_closed current step with none | ⟨header, opens⟩
    · rw [none]
      rfl
    · rw [opens]
      exact Document.vars_addPou_of_nil _ _ (vars_ofHeader header step.pos) list
  | some scopes =>
    have gains := gains_of_revises (revision_of_open current step)
    rw [model_of_open current, stored, current]
    -- What the open POU gains is what the fragment stores.
    cases revision : state.revision? step with
    | none =>
      rw [revision] at gains
      have nothing : scopes.declared step ++ scopes.inputs step = [] := gains
      simp [nothing]
    | some next =>
      rw [revision] at gains
      exact Document.vars_replace _ gains.1 gains.2 list

theorem vars_run (state : State) (steps : List Step) (list : VariableList) :
    (state.run steps).model.vars list =
      state.model.vars list ++ entriesOf list (state.storedBy steps) := by
  induction steps generalizing state with
  | nil => simp [storedBy]
  | cons step steps ih =>
    rw [run_cons, ih, vars_step, storedBy, entriesOf_append, List.append_assoc]

theorem vars_finish (state : State) (list : VariableList) :
    state.finish.vars list = state.model.vars list := by
  cases current : state.current with
  | none => simp [finish, model, current]
  | some scopes => simp [finish, closePou, model, current]

end State

theorem vars_parse (source : String) (list : VariableList) :
    (parse source).vars list = entriesOf list (State.storedBy {} (steps source)) := by
  obtain ⟨unterminated, -, result⟩ := parse_eq_run source
  have empty : (State.model {}).vars list = [] := by
    obtain ⟨kind, number, part⟩ := list
    cases kind <;> rfl
  rw [result, Document.vars_report, State.vars_finish, State.vars_run, empty, List.nil_append]

example :
    let document := parse ("FUNCTION_BLOCK F VAR a, b : INT := 1; (* both *) END_VAR\n" ++
      "METHOD M(n : REAL) VAR_TEMP t : BOOL; END_VAR VAR k : BOOL; END_METHOD END_FUNCTION_BLOCK\n")
    let stored (part : VariablePart) : List (String × Scope × Option String) :=
      (document.vars ⟨.functionBlock, 0, part⟩).map fun v => (v.name, v.scope, v.comment)
    stored .vars =
        [("a", .var, some "both"), ("b", .var, some "both"), ("k", .var, none)] ∧
      stored (.methodParameters 0) = [("n", .input, none)] ∧
      stored (.methodLocals 0) = [("t", .temp, none)] := by
  decide +kernel

end StructuredText
