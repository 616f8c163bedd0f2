import Mathlib.Data.List.Forall2
import StructuredText.Proofs.Reading
import StructuredText.Proofs.View

set_option autoImplicit false

namespace StructuredText

def Variable.viewed (v : View) (x : Variable) : Variable :=
  { x with comment := v.comment x.comment, line := v.line x.line }

def Unsupported.viewed (v : View) (entry : Unsupported) : Unsupported :=
  { entry with line := v.line entry.line }

def Body.viewed (v : View) (body : Body) : Body where
  statements := viewedStatements v body.statements
  unsupported := body.unsupported.map (Unsupported.viewed v)

def Method.viewed (v : View) (method : Method) : Method :=
  { method with
    parameters := method.parameters.map (Variable.viewed v)
    locals := method.locals.map (Variable.viewed v)
    body := method.body.viewed v
    implementation := v.copy method.implementation
    pos := method.pos.viewed v }

def Property.viewed (v : View) (property : Property) : Property :=
  { property with
    body := property.body.viewed v
    implementation := v.copy property.implementation
    pos := property.pos.viewed v }

def FunctionBlock.viewed (v : View) (block : FunctionBlock) : FunctionBlock :=
  { block with
    vars := block.vars.map (Variable.viewed v)
    methods := block.methods.map (Method.viewed v)
    properties := block.properties.map (Property.viewed v)
    body := block.body.viewed v
    pos := block.pos.viewed v }

def Program.viewed (v : View) (program : Program) : Program :=
  { program with
    vars := program.vars.map (Variable.viewed v)
    body := program.body.viewed v
    pos := program.pos.viewed v }

def Function.viewed (v : View) (function : Function) : Function :=
  { function with
    parameters := function.parameters.map (Variable.viewed v)
    locals := function.locals.map (Variable.viewed v)
    body := function.body.viewed v
    pos := function.pos.viewed v }

section Full

@[simp] theorem Variable.viewed_full : Variable.viewed .full = id := rfl

@[simp] theorem Unsupported.viewed_full : Unsupported.viewed .full = id := rfl

@[simp] theorem Body.viewed_full : Body.viewed .full = id := by
  funext body
  simp [Body.viewed, viewedStatements_full]

@[simp] theorem Method.viewed_full : Method.viewed .full = id := by
  funext method
  simp [Method.viewed]

@[simp] theorem Property.viewed_full : Property.viewed .full = id := by
  funext property
  simp [Property.viewed]

@[simp] theorem FunctionBlock.viewed_full : FunctionBlock.viewed .full = id := by
  funext block
  simp [FunctionBlock.viewed]

@[simp] theorem Program.viewed_full : Program.viewed .full = id := by
  funext program
  simp [Program.viewed]

@[simp] theorem Function.viewed_full : Function.viewed .full = id := by
  funext function
  simp [Function.viewed]

end Full

namespace Document

def viewed (v : View) (document : Document) : Document where
  functionBlocks := document.functionBlocks.map (FunctionBlock.viewed v)
  programs := document.programs.map (Program.viewed v)
  functions := document.functions.map (Function.viewed v)
  diagnostics := document.diagnostics.map (Diagnostic.viewed v)

@[simp] theorem viewed_full (document : Document) : document.viewed .full = document := by
  simp [viewed]

theorem report_viewed (v : View) (document : Document) (diagnostics : List Diagnostic) :
    (document.viewed v).report (diagnostics.map (Diagnostic.viewed v)) =
      (document.report diagnostics).viewed v := by
  simp [report, viewed]

end Document

def Member.viewed (v : View) : Member → Member
  | method m => method (m.viewed v)
  | property p => property (p.viewed v)

theorem Member.addImplementation_viewed (v : View) (member : Member) (text : String) :
    (member.viewed v).addImplementation (v.copy text) =
      (member.addImplementation text).viewed v := by
  cases member <;>
    simp [viewed, addImplementation, Method.viewed, Property.viewed, View.copy_append]

namespace OpenPou

def viewed (v : View) : OpenPou → OpenPou
  | functionBlock block member => functionBlock (block.viewed v) (member.map (Member.viewed v))
  | program p => program (p.viewed v)
  | function f => function (f.viewed v)

variable {v : View} (pou : OpenPou)

@[simp] theorem kind_viewed : (pou.viewed v).kind = pou.kind := by
  cases pou <;> rfl

@[simp] theorem name_viewed : (pou.viewed v).name = pou.name := by
  cases pou <;> rfl

@[simp] theorem pos_viewed : (pou.viewed v).pos = pou.pos.viewed v := by
  cases pou <;> rfl

@[simp] theorem member?_viewed : (pou.viewed v).member? = pou.member?.map (Member.viewed v) := by
  cases pou <;> rfl

theorem body_viewed : (pou.viewed v).body = pou.body.viewed v := by
  rcases pou with ⟨block, _ | (method | property)⟩ | program | function <;> rfl

theorem setBody_viewed (body : Body) :
    (pou.viewed v).setBody (body.viewed v) = (pou.setBody body).viewed v := by
  rcases pou with ⟨block, _ | (method | property)⟩ | program | function <;> rfl

theorem addVariable_viewed (x : Variable) :
    (pou.viewed v).addVariable (x.viewed v) = (pou.addVariable x).viewed v := by
  rcases pou with ⟨block, _ | (method | property)⟩ | program | function
  · simp [viewed, addVariable, FunctionBlock.addVariable, FunctionBlock.viewed]
  · by_cases temporary : x.scope = .temp
    · simp [viewed, Member.viewed, addVariable, Variable.viewed, temporary, Method.viewed]
    · simp [viewed, Member.viewed, addVariable, FunctionBlock.addVariable, FunctionBlock.viewed,
        Variable.viewed, temporary]
  · simp [viewed, Member.viewed, addVariable, FunctionBlock.addVariable, FunctionBlock.viewed]
  · simp [viewed, addVariable, Program.viewed]
  · by_cases parameter : x.scope.isParameter = true
    · simp [viewed, addVariable, Function.viewed, Variable.viewed, parameter]
    · simp [viewed, addVariable, Function.viewed, Variable.viewed, parameter]

theorem foldl_addVariable_viewed {α : Type} (variableOf : α → Variable) (names : List α) :
    names.foldl (fun pou name => pou.addVariable ((variableOf name).viewed v)) (pou.viewed v) =
      (names.foldl (fun pou name => pou.addVariable (variableOf name)) pou).viewed v := by
  induction names generalizing pou with
  | nil => rfl
  | cons name names ih => rw [List.foldl_cons, List.foldl_cons, addVariable_viewed, ih]

theorem setMember_viewed (member : Member) :
    (pou.viewed v).setMember (some (member.viewed v)) = (pou.setMember (some member)).viewed v := by
  cases pou <;> rfl

theorem viewed_addImplementation {member : Member} (dropped : v.keepsCopies = false)
    (isOpen : pou.member? = some member) (text : String) :
    (pou.setMember (some (member.addImplementation text))).viewed v = pou.viewed v := by
  have unseen : (member.addImplementation text).viewed v = member.viewed v := by
    cases member <;>
      simp [Member.addImplementation, Member.viewed, Method.viewed, Property.viewed, View.copy,
        dropped]
  cases pou with
  | functionBlock block inner =>
    obtain rfl : inner = some member := isOpen
    simp [setMember, viewed, unseen]
  | program p => cases isOpen
  | function f => cases isOpen

theorem closeMember_viewed : (pou.viewed v).closeMember = pou.closeMember.viewed v := by
  rcases pou with ⟨block, _ | (method | property)⟩ | program | function
  · rfl
  · simp [viewed, Member.viewed, closeMember, FunctionBlock.addMember, FunctionBlock.viewed]
  · simp [viewed, Member.viewed, closeMember, FunctionBlock.addMember, FunctionBlock.viewed]
  · rfl
  · rfl

theorem ofHeader_viewed (header : PouHeader) (pos : Position) :
    ofHeader header (pos.viewed v) = (ofHeader header pos).viewed v := by
  cases kind : header.kind <;> simp only [ofHeader, kind] <;> rfl

end OpenPou

theorem Document.addPou_viewed (v : View) (document : Document) (pou : OpenPou) :
    (document.viewed v).addPou (pou.viewed v) = (document.addPou pou).viewed v := by
  simp only [addPou, OpenPou.closeMember_viewed]
  cases pou.closeMember <;> simp [OpenPou.viewed, viewed]

def OpenPou.withAccessor? : OpenPou → Accessor → Option OpenPou
  | functionBlock block (some (.property property)), accessor =>
    some (functionBlock block (some (.property (property.addAccessor accessor))))
  | _, _ => none

theorem OpenPou.withAccessor?_viewed (v : View) (accessor : Accessor) (pou : OpenPou) :
    (pou.viewed v).withAccessor? accessor = (pou.withAccessor? accessor).map (viewed v) := by
  rcases pou with ⟨block, _ | (method | property)⟩ | program | function <;>
    cases accessor <;> rfl

def OpenSection.viewed (v : View) (opened : OpenSection) : OpenSection :=
  { opened with pos := opened.pos.viewed v }

namespace Scopes

def viewed (v : View) (scopes : Scopes) : Scopes where
  pou := scopes.pou.viewed v
  varSection := scopes.varSection.map (OpenSection.viewed v)
  builder := scopes.builder.viewed v
  copiedLine := scopes.copiedLine.map v.line

theorem unfinished_viewed (v : View) (scopes : Scopes) :
    (scopes.viewed v).unfinished = scopes.unfinished.map (Diagnostic.viewed v) := by
  obtain ⟨pou, varSection, builder, copiedLine⟩ := scopes
  rw [unfinished, unfinished, List.map_append, ← Builder.close_viewed]
  cases varSection <;> rfl

theorem unclosed_viewed (v : View) (scopes : Scopes) :
    (scopes.viewed v).unclosed = scopes.unclosed.map (Diagnostic.viewed v) := by
  rw [unclosed, unclosed, List.map_append, unfinished_viewed, viewed, OpenPou.member?_viewed]
  rcases scopes.pou.member? with _ | (method | property) <;> rfl

end Scopes

namespace State

def viewed (v : View) (state : State) : State where
  document := state.document.viewed v
  current := state.current.map (Scopes.viewed v)

def viewedOutcome (v : View) (outcome : State × Option Problem) : State × Option Problem :=
  (outcome.1.viewed v, outcome.2)

variable {v : View} (state : State)

theorem report_viewed (diagnostics : List Diagnostic) :
    (state.viewed v).report (diagnostics.map (Diagnostic.viewed v)) =
      (state.report diagnostics).viewed v := by
  simp [report, viewed, Document.report_viewed]

theorem setScopes_viewed (scopes : Scopes) :
    (state.viewed v).setScopes (scopes.viewed v) = (state.setScopes scopes).viewed v := rfl

theorem current_viewed : (state.viewed v).current = state.current.map (Scopes.viewed v) := rfl

theorem dropPending_viewed : (state.viewed v).dropPending = state.dropPending.viewed v := by
  simp only [dropPending, current_viewed]
  cases state.current with
  | none => rfl
  | some scopes =>
    have dropped := scopes.builder.dropPending_viewed (v := v)
    simp only [Option.map_some, Scopes.viewed, dropped]
    rw [← report_viewed]
    rfl

theorem closePou_viewed : (state.viewed v).closePou = state.closePou.viewed v := by
  simp only [closePou, current_viewed]
  cases state.current with
  | none => rfl
  | some scopes =>
    simp only [Option.map_some, scopes.unclosed_viewed v]
    simp only [viewed, Scopes.viewed, Document.addPou_viewed, Document.report_viewed,
      Option.map_none]

theorem closing_viewed (word : ClosingWord) :
    (state.viewed v).closing word = viewedOutcome v (state.closing word) := by
  cases current : state.current with
  | none => simp [closing, current_viewed, current, viewedOutcome]
  | some scopes =>
    have opened : (state.viewed v).current = some (scopes.viewed v) := by
      simp [current_viewed, current]
    have member : (scopes.viewed v).pou.member? = scopes.pou.member?.map (Member.viewed v) :=
      scopes.pou.member?_viewed
    cases word with
    | var =>
      simp only [closing, opened, current]
      cases inSection : scopes.varSection <;>
        simp [Scopes.viewed, inSection, viewedOutcome, viewed, setScopes]
    | get | set =>
      simp only [closing, opened, current, member]
      rcases scopes.pou.member? with _ | (method | property) <;> rfl
    | pou kind =>
      simp only [closing, opened, current, Scopes.viewed, OpenPou.kind_viewed,
        OpenPou.name_viewed, closePou_viewed]
      split <;> rfl
    | method | property =>
      have closes : ((state.viewed v).setScopes { pou := (scopes.viewed v).pou.closeMember }).report
            (scopes.viewed v).unfinished =
          ((state.setScopes { pou := scopes.pou.closeMember }).report
            scopes.unfinished).viewed v := by
        rw [scopes.unfinished_viewed, Scopes.viewed, scopes.pou.closeMember_viewed, ← report_viewed]
        rfl
      simp only [closing, opened, current, member, closes]
      rcases scopes.pou.member? with _ | (method | property) <;> rfl

theorem openPou_viewed (header : PouHeader) (pos : Position) :
    (state.viewed v).openPou header (pos.viewed v) =
      viewedOutcome v (state.openPou header pos) := by
  simp only [openPou, current_viewed, OpenPou.ofHeader_viewed]
  cases state.current <;> rfl

theorem openMember_viewed (member : Member) (problems : List Diagnostic) :
    (state.viewed v).openMember (member.viewed v) (problems.map (Diagnostic.viewed v)) =
      viewedOutcome v (state.openMember member problems) := by
  have construct : (member.viewed v).construct = member.construct := by
    cases member <;> rfl
  simp only [openMember, current_viewed, construct]
  cases state.current with
  | none => rfl
  | some scopes =>
    have unfinished := scopes.unfinished_viewed v
    simp only [Option.map_some, unfinished, ← List.map_append, report_viewed]
    simp only [Scopes.viewed]
    rcases scopes.pou with ⟨block, _ | inner⟩ | program | function <;> rfl

theorem openMethod_viewed (header : MethodHeader) (pos : Position) :
    (state.viewed v).openMethod header (pos.viewed v) =
      viewedOutcome v (state.openMethod header pos) := by
  simp only [openMethod, MethodHeader.inputs, MethodHeader.invalidParameters]
  rw [← openMember_viewed]
  simp only [Member.viewed, Method.viewed, Body.viewed, viewedStatements, View.copy_empty,
    List.map_filterMap, List.map_nil]
  congr 3
  · congr 1
    funext entry
    cases entry <;> simp [Variable.viewed, Position.viewed]
  · funext entry
    cases entry <;> rfl

theorem openProperty_viewed (header : PropertyHeader) (pos : Position) :
    (state.viewed v).openProperty header (pos.viewed v) =
      viewedOutcome v (state.openProperty header pos) := by
  simp only [openProperty]
  rw [← openMember_viewed]
  simp [Member.viewed, Property.viewed, Body.viewed, viewedStatements]

theorem openSection_viewed (header : SectionHeader) (pos : Position) :
    (state.viewed v).openSection header (pos.viewed v) =
      viewedOutcome v (state.openSection header pos) := by
  simp only [openSection, current_viewed]
  cases state.current with
  | none => rfl
  | some scopes =>
    have ended : ((scopes.viewed v).varSection.map OpenSection.unclosed).toList =
        (scopes.varSection.map OpenSection.unclosed).toList.map (Diagnostic.viewed v) := by
      simp only [Scopes.viewed]
      cases scopes.varSection <;> rfl
    simp only [Option.map_some, ended, report_viewed]
    rfl

theorem boundary_viewed (pos : Position) (boundary : Boundary) :
    (state.viewed v).boundary (pos.viewed v) boundary =
      viewedOutcome v (state.boundary pos boundary) := by
  cases boundary with
  | closing word => exact state.closing_viewed word
  | pou header => exact state.openPou_viewed header pos
  | method header => exact state.openMethod_viewed header pos
  | property header => exact state.openProperty_viewed header pos
  | varSection header => exact state.openSection_viewed header pos

theorem declare_viewed (scopes : Scopes) (header : SectionHeader) (text : List Char) (line : Nat)
    (comment : Option String) :
    (state.viewed v).declare (scopes.viewed v) header text (v.line line) (v.comment comment) =
      viewedOutcome v (state.declare scopes header text line comment) := by
  cases kept : header.scope? with
  | none => simp [declare, kept, viewedOutcome]
  | some scope =>
    cases read : Declaration.read? text with
    | none => simp [declare, kept, read, viewedOutcome]
    | some declaration =>
      have declared := scopes.pou.foldl_addVariable_viewed (v := v)
        (fun name => { name, type := declaration.type, scope,
                       initialValue := declaration.initialValue, comment, line })
        declaration.names
      simp only [declare, kept, read, viewedOutcome, ← setScopes_viewed, Scopes.viewed, ← declared]
      rfl

theorem finish_viewed : (state.viewed v).finish = state.finish.viewed v := by
  simp only [finish, current_viewed]
  cases state.current with
  | none => rfl
  | some scopes =>
    simp only [Option.map_some, closePou_viewed, Scopes.viewed, OpenPou.kind_viewed,
      OpenPou.name_viewed, OpenPou.pos_viewed]
    rw [← Document.report_viewed]
    rfl

def record (scopes : Scopes) (text : List Char) (number : Nat) (copied : String) : Scopes :=
  let body := scopes.pou.body
  let entry := ⟨String.ofList text, number⟩
  let pou := scopes.pou.setBody { body with unsupported := body.unsupported ++ [entry] }
  match pou.member? with
  | none => { scopes with pou }
  | some member =>
    if scopes.copiedLine = some number then { scopes with pou }
    else
      { scopes with
        pou := pou.setMember (some (member.addImplementation copied))
        copiedLine := some number }

theorem record_viewed (scopes : Scopes) (text : List Char) (number : Nat) (copied : String) :
    record (scopes.viewed v) text (v.line number) (v.copy copied) =
      (record scopes text number copied).viewed v := by
  let body := scopes.pou.body
  let entry : Unsupported := ⟨String.ofList text, number⟩
  have recorded : (scopes.viewed v).pou.setBody { (scopes.viewed v).pou.body with
        unsupported := (scopes.viewed v).pou.body.unsupported ++
          [⟨String.ofList text, v.line number⟩] } =
      (scopes.pou.setBody { body with unsupported := body.unsupported ++ [entry] }).viewed v := by
    rw [← OpenPou.setBody_viewed, Scopes.viewed, OpenPou.body_viewed]
    simp [Body.viewed, Unsupported.viewed, body, entry]
  simp only [record, recorded, OpenPou.member?_viewed]
  generalize scopes.pou.setBody _ = pou
  cases isOpen : pou.member? with
  | none => simp [Scopes.viewed]
  | some member =>
    have copies : (pou.viewed v).setMember
        (some ((member.viewed v).addImplementation (v.copy copied))) =
        (pou.setMember (some (member.addImplementation copied))).viewed v := by
      rw [Member.addImplementation_viewed, OpenPou.setMember_viewed]
    simp only [Option.map_some, copies]
    by_cases keeps : v.keepsCopies = true
    · have same : (scopes.viewed v).copiedLine = some (v.line number) ↔
          scopes.copiedLine = some number := by
        simp [Scopes.viewed, (v.apart keeps).eq_iff]
      simp only [same]
      split <;> rfl
    · -- The line may be taken for another one, but the copy is not seen.
      have unseen := pou.viewed_addImplementation (Bool.not_eq_true _ ▸ keeps) isOpen copied
      rw [unseen]
      split <;> split <;> simp_all [Scopes.viewed]

def accept (state : State) (scopes : Scopes) (outcome : Builder.Outcome) (number : Nat)
    (copied : String) : State × Option Problem :=
  let pou := scopes.pou.setBody { scopes.pou.body with statements := outcome.root }
  let scopes := { scopes with pou, builder := outcome.builder }
  let state := state.report outcome.reported
  match outcome.result with
  | .error problem => (state.setScopes scopes, some problem)
  | .ok (.unsupported text) => (state.setScopes (record scopes text number copied), none)
  | .ok _ => (state.setScopes scopes, none)

theorem accept_viewed (scopes : Scopes) (outcome : Builder.Outcome) (number : Nat)
    (copied : String) :
    (state.viewed v).accept (scopes.viewed v) (outcome.viewed v) (v.line number) (v.copy copied) =
      viewedOutcome v (state.accept scopes outcome number copied) := by
  let next : Scopes :=
    { scopes with
      pou := scopes.pou.setBody { scopes.pou.body with statements := outcome.root }
      builder := outcome.builder }
  have fed : { scopes.viewed v with
        pou := (scopes.viewed v).pou.setBody
          { (scopes.viewed v).pou.body with statements := (outcome.viewed v).root }
        builder := (outcome.viewed v).builder } = next.viewed v := by
    have body := scopes.pou.setBody_viewed (v := v)
      { scopes.pou.body with statements := outcome.root }
    simp only [Scopes.viewed, OpenPou.body_viewed, next, ← body]
    rfl
  have reported : (state.viewed v).report (outcome.viewed v).reported =
      (state.report outcome.reported).viewed v := state.report_viewed outcome.reported
  have result : (outcome.viewed v).result = outcome.result := rfl
  simp only [accept, fed, reported, result]
  cases outcome.result with
  | error problem => rfl
  | ok kind =>
    cases kind with
    | unsupported text => simp only [record_viewed, setScopes_viewed, viewedOutcome, next]
    | statement => rfl
    | pending => rfl

def take (state : State) (text : List Char) (pos : Position) (number : Nat) (copied : String)
    (comment : Option String) : State × Option Problem :=
  match state.current with
  | none => (state, none)
  | some scopes =>
    match scopes.varSection with
    | some varSection => state.declare scopes varSection.header text number comment
    | none =>
      match (Accessor.read? text).bind scopes.pou.withAccessor? with
      | some pou => (state.setScopes { scopes with pou }, none)
      | none =>
        let outcome := scopes.builder.feed scopes.pou.body.statements text pos
        state.accept scopes outcome number copied

theorem content_eq_take (text : List Char) (pos : Position) (line : SourceLine)
    (comment : Option String) :
    state.content text pos line comment =
      state.take text pos line.number (String.ofList (trim line.raw) ++ "\n") comment := by
  rw [content, take]
  cases state.current with
  | none => rfl
  | some scopes =>
    obtain ⟨pou, varSection, builder, copiedLine⟩ := scopes
    cases varSection with
    | some varSection => rfl
    | none =>
      cases Accessor.read? text with
      | none => rcases pou with ⟨block, _ | (method | property)⟩ | program | function <;> rfl
      | some accessor =>
        rcases pou with ⟨block, _ | (method | property)⟩ | program | function <;> rfl

theorem take_viewed (text : List Char) (pos : Position) (number : Nat) (copied : String)
    (comment : Option String) :
    (state.viewed v).take text (pos.viewed v) (v.line number) (v.copy copied) (v.comment comment) =
      viewedOutcome v (state.take text pos number copied comment) := by
  simp only [take, current_viewed]
  cases state.current with
  | none => rfl
  | some scopes =>
    have varSection : (scopes.viewed v).varSection =
        scopes.varSection.map (OpenSection.viewed v) := rfl
    have amended : (Accessor.read? text).bind (scopes.viewed v).pou.withAccessor? =
        ((Accessor.read? text).bind scopes.pou.withAccessor?).map (OpenPou.viewed v) := by
      cases Accessor.read? text with
      | none => rfl
      | some accessor => exact scopes.pou.withAccessor?_viewed v accessor
    have statements : (scopes.viewed v).pou.body.statements =
        viewedStatements v scopes.pou.body.statements :=
      congrArg Body.statements scopes.pou.body_viewed
    simp only [Option.map_some, varSection, amended, statements]
    cases scopes.varSection with
    | some opened => exact state.declare_viewed scopes opened.header text number comment
    | none =>
      cases (Accessor.read? text).bind scopes.pou.withAccessor? with
      | some pou => rfl
      | none =>
        have fed := scopes.builder.feed_viewed (v := v) scopes.pou.body.statements pos text
        simp only [Option.map_none, Scopes.viewed, fed]
        exact state.accept_viewed scopes _ number copied

end State

structure Step.Alike (v w : View) (one other : Step) : Prop where
  text : one.text = other.text
  pos : one.pos.viewed v = other.pos.viewed w
  start : one.start.viewed v = other.start.viewed w
  number : v.line one.line.number = w.line other.line.number
  comment : v.comment one.comment = w.comment other.comment
  copy : v.copy (String.ofList (trim one.line.raw) ++ "\n") =
    w.copy (String.ofList (trim other.line.raw) ++ "\n")

namespace State

variable {v w : View} {one other : State}

theorem settle_viewed (outcome : State × Option Problem) (start : Position) :
    settle (viewedOutcome v outcome) (start.viewed v) = (settle outcome start).viewed v := by
  obtain ⟨state, problem⟩ := outcome
  rw [settle, settle, ← report_viewed]
  cases problem <;> rfl

theorem step_alike (alike : one.viewed v = other.viewed w) {left right : Step}
    (same : left.Alike v w right) : (one.step left).viewed v = (other.step right).viewed w := by
  have boundary : left.boundary? = right.boundary? := by
    rw [Step.boundary?, Step.boundary?, same.text]
  by_cases blank : left.text = []
  · rw [step_of_blank one blank, step_of_blank other (same.text ▸ blank), alike]
  · cases read : left.boundary? with
    | some word =>
      rw [step_of_boundary one read, step_of_boundary other (boundary ▸ read), ← settle_viewed,
        ← settle_viewed, ← boundary_viewed, ← boundary_viewed, ← dropPending_viewed,
        ← dropPending_viewed, alike, same.pos, same.start]
    | none =>
      have visible : right.text ≠ [] := same.text ▸ blank
      rw [step_of_content one blank read, step_of_content other visible (boundary ▸ read),
        ← settle_viewed, ← settle_viewed, content_eq_take, content_eq_take, ← take_viewed,
        ← take_viewed, alike, same.text, same.pos, same.number, same.copy, same.comment,
        same.start]

theorem run_alike (alike : one.viewed v = other.viewed w) {left right : List Step}
    (same : List.Forall₂ (Step.Alike v w) left right) :
    (one.run left).viewed v = (other.run right).viewed w := by
  induction same generalizing one other with
  | nil => exact alike
  | cons first _ ih => exact ih (step_alike alike first)

end State

structure SourceLine.Alike (v w : View) (one other : SourceLine) : Prop where
  code : one.stripped.code = other.stripped.code
  place : ∀ offset, (one.position offset).viewed v = (other.position offset).viewed w
  number : v.line one.number = w.line other.number
  comment : ∀ start stop, v.comment (one.stripped.commentBetween start stop) =
    w.comment (other.stripped.commentBetween start stop)
  copy : v.copy (String.ofList (trim one.raw) ++ "\n") =
    w.copy (String.ofList (trim other.raw) ++ "\n")

namespace SourceLine.Alike

variable {v w : View} {one other : SourceLine} (alike : one.Alike v w other)

include alike

theorem lineSteps (parts : List Fragment) :
    List.Forall₂ (Step.Alike v w) (lineSteps one parts) (lineSteps other parts) := by
  induction parts with
  | nil => exact .nil
  | cons part parts ih =>
    exact .cons
      ⟨rfl, alike.place _, alike.place _, alike.number, alike.comment _ _, alike.copy⟩ ih

theorem steps :
    List.Forall₂ (Step.Alike v w) (if one.stripped.isEmpty then [] else one.steps)
      (if other.stripped.isEmpty then [] else other.steps) := by
  have sameCode : one.stripped.isEmpty = other.stripped.isEmpty := by
    rw [StrippedLine.isEmpty, alike.code, StrippedLine.isEmpty]
  rw [sameCode]
  split
  · exact .nil
  · rw [SourceLine.steps, alike.code]
    exact alike.lineSteps _

end SourceLine.Alike

end StructuredText
