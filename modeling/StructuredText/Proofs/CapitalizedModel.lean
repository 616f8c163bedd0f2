import StructuredText.Document.State
import StructuredText.Proofs.CapitalizedTrees
import StructuredText.Proofs.RecasedHeaders
import StructuredText.Proofs.ViewedReading

set_option autoImplicit false

namespace StructuredText

def Problem.capitalized : Problem → Problem
  | unclosed kind name => unclosed kind (inCapitals name)
  | malformedDeclaration text => malformedDeclaration (inCapitals text)
  | invalidParameter text => invalidParameter (inCapitals text)
  | mismatchedEnd found kind name => mismatchedEnd found kind (inCapitals name)
  | unterminatedStatement text => unterminatedStatement (inCapitals text)
  | problem => problem

def Diagnostic.capitalized (diagnostic : Diagnostic) : Diagnostic :=
  { diagnostic with problem := diagnostic.problem.capitalized }

@[simp] theorem Diagnostic.capitalized_at (problem : Problem) (pos : Position) :
    (problem.at pos).capitalized = problem.capitalized.at pos := rfl

def Variable.capitalized (v : Variable) : Variable :=
  { v with
    name := inCapitals v.name
    type := inCapitals v.type
    initialValue := v.initialValue.map inCapitals
    comment := v.comment.map inCapitals }

def Unsupported.capitalized (entry : Unsupported) : Unsupported :=
  { entry with text := inCapitals entry.text }

def Body.capitalized (body : Body) : Body where
  statements := capitalizedStatements body.statements
  unsupported := body.unsupported.map Unsupported.capitalized

def Method.capitalized (method : Method) : Method :=
  { method with
    name := inCapitals method.name
    returnType := method.returnType.map inCapitals
    parameters := method.parameters.map Variable.capitalized
    locals := method.locals.map Variable.capitalized
    body := method.body.capitalized
    implementation := inCapitals method.implementation }

def Property.capitalized (property : Property) : Property :=
  { property with
    name := inCapitals property.name
    type := inCapitals property.type
    body := property.body.capitalized
    implementation := inCapitals property.implementation }

def FunctionBlock.capitalized (block : FunctionBlock) : FunctionBlock :=
  { block with
    name := inCapitals block.name
    base := block.base.map inCapitals
    interfaces := block.interfaces.map inCapitals
    vars := block.vars.map Variable.capitalized
    methods := block.methods.map Method.capitalized
    properties := block.properties.map Property.capitalized
    body := block.body.capitalized }

def Program.capitalized (program : Program) : Program :=
  { program with
    name := inCapitals program.name
    vars := program.vars.map Variable.capitalized
    body := program.body.capitalized }

def Function.capitalized (function : Function) : Function :=
  { function with
    name := inCapitals function.name
    returnType := function.returnType.map inCapitals
    parameters := function.parameters.map Variable.capitalized
    locals := function.locals.map Variable.capitalized
    body := function.body.capitalized }

namespace Document

def capitalized (document : Document) : Document where
  functionBlocks := document.functionBlocks.map FunctionBlock.capitalized
  programs := document.programs.map Program.capitalized
  functions := document.functions.map Function.capitalized
  diagnostics := document.diagnostics.map Diagnostic.capitalized

theorem report_capitalized (document : Document) (diagnostics : List Diagnostic) :
    (document.report diagnostics).capitalized =
      document.capitalized.report (diagnostics.map Diagnostic.capitalized) := by
  simp [report, capitalized]

end Document

def Member.capitalized : Member → Member
  | method m => method m.capitalized
  | property p => property p.capitalized

theorem Member.addImplementation_capitalized (member : Member) (text : String) :
    (member.addImplementation text).capitalized =
      member.capitalized.addImplementation (inCapitals text) := by
  cases member <;> simp [capitalized, addImplementation, Method.capitalized, Property.capitalized]

namespace OpenPou

def capitalized : OpenPou → OpenPou
  | functionBlock block member => functionBlock block.capitalized (member.map Member.capitalized)
  | program p => program p.capitalized
  | function f => function f.capitalized

variable (pou : OpenPou)

@[simp] theorem kind_capitalized : pou.capitalized.kind = pou.kind := by
  cases pou <;> rfl

@[simp] theorem name_capitalized : pou.capitalized.name = inCapitals pou.name := by
  cases pou <;> rfl

@[simp] theorem pos_capitalized : pou.capitalized.pos = pou.pos := by
  cases pou <;> rfl

@[simp] theorem member?_capitalized :
    pou.capitalized.member? = pou.member?.map Member.capitalized := by
  cases pou <;> rfl

theorem body_capitalized : pou.capitalized.body = pou.body.capitalized := by
  rcases pou with ⟨block, _ | (method | property)⟩ | program | function <;> rfl

theorem setBody_capitalized (body : Body) :
    (pou.setBody body).capitalized = pou.capitalized.setBody body.capitalized := by
  rcases pou with ⟨block, _ | (method | property)⟩ | program | function <;> rfl

theorem addVariable_capitalized (v : Variable) :
    (pou.addVariable v).capitalized = pou.capitalized.addVariable v.capitalized := by
  rcases pou with ⟨block, _ | (method | property)⟩ | program | function
  · simp [capitalized, addVariable, FunctionBlock.addVariable, FunctionBlock.capitalized]
  · by_cases temporary : v.scope = .temp
    · simp [capitalized, Member.capitalized, addVariable, Variable.capitalized, temporary,
        Method.capitalized]
    · simp [capitalized, Member.capitalized, addVariable, FunctionBlock.addVariable,
        FunctionBlock.capitalized, Variable.capitalized, temporary]
  · simp [capitalized, Member.capitalized, addVariable, FunctionBlock.addVariable,
      FunctionBlock.capitalized]
  · simp [capitalized, addVariable, Program.capitalized]
  · by_cases parameter : v.scope.isParameter = true
    · simp [capitalized, addVariable, Function.capitalized, Variable.capitalized, parameter]
    · simp [capitalized, addVariable, Function.capitalized, Variable.capitalized, parameter]

theorem foldl_addVariable_capitalized (vs : List Variable) :
    (vs.foldl (fun pou v => pou.addVariable v) pou).capitalized =
      (vs.map Variable.capitalized).foldl (fun pou v => pou.addVariable v) pou.capitalized := by
  induction vs generalizing pou with
  | nil => rfl
  | cons v vs ih =>
    rw [List.foldl_cons, List.map_cons, List.foldl_cons, ih, addVariable_capitalized]

theorem setMember_capitalized (member : Member) :
    (pou.setMember (some member)).capitalized =
      pou.capitalized.setMember (some member.capitalized) := by
  cases pou <;> rfl

theorem closeMember_capitalized : pou.closeMember.capitalized = pou.capitalized.closeMember := by
  rcases pou with ⟨block, _ | (method | property)⟩ | program | function
  · rfl
  · simp [capitalized, Member.capitalized, closeMember, FunctionBlock.addMember,
      FunctionBlock.capitalized]
  · simp [capitalized, Member.capitalized, closeMember, FunctionBlock.addMember,
      FunctionBlock.capitalized]
  · rfl
  · rfl

theorem ofHeader_capitalized (header : PouHeader) (pos : Position) :
    (ofHeader header pos).capitalized = ofHeader header.capitalized pos := by
  cases kind : header.kind <;> simp only [ofHeader, PouHeader.capitalized, kind] <;> rfl

theorem withAccessor?_capitalized (accessor : Accessor) :
    pou.capitalized.withAccessor? accessor = (pou.withAccessor? accessor).map capitalized := by
  rcases pou with ⟨block, _ | (method | property)⟩ | program | function <;>
    cases accessor <;> rfl

end OpenPou

theorem Document.addPou_capitalized (document : Document) (pou : OpenPou) :
    (document.addPou pou).capitalized = document.capitalized.addPou pou.capitalized := by
  simp only [addPou, ← OpenPou.closeMember_capitalized]
  cases pou.closeMember <;> simp [OpenPou.capitalized, capitalized]

end StructuredText
