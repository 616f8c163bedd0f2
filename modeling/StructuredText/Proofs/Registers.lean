import Mathlib.Tactic.Simps.Basic
import StructuredText.Document.Registers
import StructuredText.Proofs.ModelChange

set_option autoImplicit false

namespace StructuredText

namespace OpenPou.Identity

def register (closed : Document) (identity : Identity) : PouRegister :=
  { kind := identity.kind
    index := (closed.pous identity.kind).length
    name := identity.name
    pos := identity.pos }

def memberRegister? (identity : Identity) : Option MemberRegister :=
  identity.member.map fun (kind, name, pos) =>
    let index :=
      if kind = .property then identity.properties.length else identity.methods.length
    { kind, index, name, pos }

end OpenPou.Identity

@[simps] def Scopes.registers (scopes : Scopes) (closed : Document) : Registers :=
  { document := (closed.addPou scopes.pou).unreported
    reported := closed.diagnostics
    pou := some (scopes.pou.identity.register closed)
    member := scopes.pou.identity.memberRegister?
    varSection := scopes.varSection
    builder := scopes.builder
    copiedLine := scopes.copiedLine }

def State.registers (state : State) : Registers :=
  match state.current with
  | none => { document := state.document.unreported, reported := state.document.diagnostics }
  | some scopes => scopes.registers state.document

def mirrored (outcome : State × Option Problem) : Registers × Option Problem :=
  (outcome.1.registers, outcome.2)

namespace Document

variable (closed : Document)

@[simp] theorem addPou_member (block : FunctionBlock) (member : Member) :
    closed.addPou (.functionBlock block (some member)) =
      closed.addPou (.functionBlock (block.addMember member) none) := rfl

@[simp] theorem block_addPou (block : FunctionBlock) :
    (closed.addPou (.functionBlock block none)).unreported.functionBlocks[
      closed.functionBlocks.length]? = some block := by
  simp [addPou, OpenPou.closeMember, unreported]

@[simp] theorem setBlock_addPou (block other : FunctionBlock) :
    (closed.addPou (.functionBlock block none)).unreported.setBlock
        closed.functionBlocks.length other =
      (closed.addPou (.functionBlock other none)).unreported := by
  simp [addPou, OpenPou.closeMember, unreported, setBlock]

theorem block_report_addPou (block : FunctionBlock) (diagnostics : List Diagnostic) :
    ((closed.report diagnostics).addPou (.functionBlock block none)).unreported.functionBlocks[
      closed.functionBlocks.length]? = some block :=
  block_addPou (closed.report diagnostics) block

theorem setBlock_report_addPou (block other : FunctionBlock) (diagnostics : List Diagnostic) :
    ((closed.report diagnostics).addPou (.functionBlock block none)).unreported.setBlock
        closed.functionBlocks.length other =
      ((closed.report diagnostics).addPou (.functionBlock other none)).unreported :=
  setBlock_addPou (closed.report diagnostics) block other

@[simp] theorem program_addPou (program : Program) :
    (closed.addPou (.program program)).unreported.programs[closed.programs.length]? =
      some program := by
  simp [addPou, OpenPou.closeMember, unreported]

@[simp] theorem setProgram_addPou (program other : Program) :
    (closed.addPou (.program program)).unreported.setProgram closed.programs.length other =
      (closed.addPou (.program other)).unreported := by
  simp [addPou, OpenPou.closeMember, unreported, setProgram]

@[simp] theorem function_addPou (function : Function) :
    (closed.addPou (.function function)).unreported.functions[closed.functions.length]? =
      some function := by
  simp [addPou, OpenPou.closeMember, unreported]

@[simp] theorem setFunction_addPou (function other : Function) :
    (closed.addPou (.function function)).unreported.setFunction closed.functions.length other =
      (closed.addPou (.function other)).unreported := by
  simp [addPou, OpenPou.closeMember, unreported, setFunction]

end Document

namespace FunctionBlock

variable (block : FunctionBlock)

@[simp] theorem method_addMember (method : Method) :
    (block.addMember (.method method)).methods[block.methods.length]? = some method := by
  simp [addMember]

@[simp] theorem setMethod_addMember (method other : Method) :
    (block.addMember (.method method)).setMethod block.methods.length other =
      block.addMember (.method other) := by
  simp [addMember, setMethod]

@[simp] theorem property_addMember (property : Property) :
    (block.addMember (.property property)).properties[block.properties.length]? =
      some property := by
  simp [addMember]

@[simp] theorem setProperty_addMember (property other : Property) :
    (block.addMember (.property property)).setProperty block.properties.length other =
      block.addMember (.property other) := by
  simp [addMember, setProperty]

theorem addVariable_addMember (member : Member) (v : Variable) :
    (block.addMember member).addVariable v = (block.addVariable v).addMember member := by
  cases member <;> rfl

end FunctionBlock

def Member.setImplementation (raw : Option String) : Member → Member
  | method m => method { m with implementation := raw.getD m.implementation }
  | property p => property { p with implementation := raw.getD p.implementation }

namespace OpenPou

def setImplementation (raw : Option String) : OpenPou → OpenPou
  | functionBlock block member => functionBlock block (member.map (Member.setImplementation raw))
  | pou => pou

def target (pou : OpenPou) (closed : Document) : BodyTarget :=
  { body := pou.body
    raw := pou.member?.map Member.implementation
    store := fun body raw =>
      (closed.addPou ((pou.setBody body).setImplementation raw)).unreported }

variable (pou : OpenPou) (closed : Document)

@[simp] theorem body_target : (pou.target closed).body = pou.body := rfl

@[simp] theorem raw_target :
    (pou.target closed).raw = pou.member?.map Member.implementation := rfl

theorem target_report (diagnostics : List Diagnostic) :
    pou.target (closed.report diagnostics) = pou.target closed := by
  simp only [target, Document.addPou_report, Document.unreported_report]

theorem bodyTarget?_eq :
    (closed.addPou pou).unreported.bodyTarget? (pou.identity.register closed)
      pou.identity.memberRegister? = some (pou.target closed) := by
  rcases pou with ⟨block, _ | (method | property)⟩ | program | function <;>
    simp [Document.bodyTarget?, identity, Identity.register, Identity.memberRegister?,
      Document.pous, Member.construct, target, body, member?, setBody, Member.body, Member.setBody,
      setImplementation, Member.setImplementation, Member.implementation]

theorem setImplementation_same (body : Body) :
    (pou.setBody body).setImplementation (pou.member?.map Member.implementation) =
      pou.setBody body := by
  rcases pou with ⟨block, _ | (method | property)⟩ | program | function <;> rfl

theorem member?_setBody (body : Body) :
    (pou.setBody body).member? = pou.member?.map (Member.setBody body) := by
  rcases pou with ⟨block, _ | member⟩ | program | function <;> rfl

theorem setImplementation_append {pou : OpenPou} {member : Member}
    (isOpen : pou.member? = some member) (body : Body) (text : String) :
    (pou.setBody body).setImplementation (some (member.implementation ++ text)) =
      (pou.setBody body).setMember (some ((member.setBody body).addImplementation text)) := by
  rcases pou with ⟨block, _ | (method | property)⟩ | program | function
  all_goals cases isOpen
  all_goals rfl

theorem register_eq :
    pou.identity.register closed =
      { kind := pou.kind, index := (closed.pous pou.kind).length, name := pou.name,
        pos := pou.pos } := by
  cases pou <;> rfl

theorem memberRegister?_none {pou : OpenPou} (closed : pou.member? = none) :
    pou.identity.memberRegister? = none := by
  rcases pou with ⟨block, _ | member⟩ | program | function
  · rfl
  · cases closed
  · rfl
  · rfl

theorem memberRegister?_some {pou : OpenPou} {member : Member}
    (isOpen : pou.member? = some member) :
    ∃ index, pou.identity.memberRegister? =
      some { kind := member.construct, index, name := member.name, pos := member.pos } := by
  rcases pou with ⟨block, _ | member⟩ | program | function
  all_goals cases isOpen
  exact ⟨_, rfl⟩

end OpenPou

theorem OpenPou.Identity.register_report (identity : Identity) (closed : Document)
    (diagnostics : List Diagnostic) :
    identity.register (closed.report diagnostics) = identity.register closed := by
  rw [register, Document.pous_report, register]

namespace Scopes

variable (scopes : Scopes) (closed : Document)

theorem variableSink?_eq :
    (scopes.registers closed).variableSink? =
      some fun v => (closed.addPou (scopes.pou.addVariable v)).unreported := by
  obtain ⟨⟨block, _ | (method | property)⟩ | program | function, varSection, builder, copied⟩ :=
    scopes <;>
    simp [registers, Registers.variableSink?, OpenPou.identity, OpenPou.Identity.register,
      OpenPou.Identity.memberRegister?, Document.pous, Member.construct, OpenPou.addVariable,
      FunctionBlock.addVariable_addMember]
  all_goals
    funext v
    split <;> rfl

def property? : Option (Property × (Property → Document)) :=
  match scopes.pou with
  | .functionBlock block (some (.property property)) =>
    some (property, fun property =>
      (closed.addPou (.functionBlock block (some (.property property)))).unreported)
  | _ => none

theorem openProperty?_eq : (scopes.registers closed).openProperty? = scopes.property? closed := by
  obtain ⟨⟨block, _ | (method | property)⟩ | program | function, varSection, builder, copied⟩ :=
    scopes <;>
    simp [registers, Registers.openProperty?, OpenPou.identity, Member.construct,
      OpenPou.Identity.register, OpenPou.Identity.memberRegister?, Document.pous, property?]

theorem registers_report (diagnostics : List Diagnostic) :
    scopes.registers (closed.report diagnostics) =
      (scopes.registers closed).report diagnostics := by
  simp only [registers, Document.addPou_report, Document.unreported_report,
    OpenPou.Identity.register_report]
  rfl

theorem addVariable_registers (v : Variable) :
    (scopes.registers closed).addVariable v =
      Scopes.registers { scopes with pou := scopes.pou.addVariable v } closed := by
  obtain ⟨identity, -⟩ := scopes.pou.addVariable_same v
  rw [Registers.addVariable, variableSink?_eq]
  simp only [registers, identity]

theorem foldl_addVariable_registers {α : Type} (variableOf : α → Variable) (names : List α) :
    names.foldl (fun registers name => registers.addVariable (variableOf name))
        (scopes.registers closed) =
      Scopes.registers
        { scopes with
          pou := names.foldl (fun pou name => pou.addVariable (variableOf name)) scopes.pou }
        closed := by
  induction names generalizing scopes with
  | nil => rfl
  | cons name names ih => rw [List.foldl_cons, addVariable_registers, ih, List.foldl_cons]

theorem closePou_registers :
    (scopes.registers closed).closePou =
      { document := (closed.addPou scopes.pou).unreported
        reported := closed.diagnostics ++ scopes.unclosed } := by
  cases opened : scopes.pou.member? with
  | none =>
    have noMember := OpenPou.memberRegister?_none opened
    simp [Registers.closePou, Registers.closeScope, Registers.report, registers, noMember, unclosed,
      unfinished, opened]
  | some member =>
    obtain ⟨index, register⟩ := OpenPou.memberRegister?_some opened
    simp [Registers.closePou, Registers.closeScope, Registers.report, registers, register, unclosed,
      unfinished, opened, Builder.close]

theorem closeScope_registers :
    (scopes.registers closed).closeScope =
      Scopes.registers { scopes with varSection := none, builder := {} }
        (closed.report scopes.unfinished) := by
  rw [registers_report]
  rfl

theorem closeMember_registers :
    (scopes.registers closed).closeMember =
      Scopes.registers { pou := scopes.pou.closeMember } (closed.report scopes.unfinished) := by
  have register : scopes.pou.closeMember.identity.register (closed.report scopes.unfinished) =
      scopes.pou.identity.register (closed.report scopes.unfinished) := by
    rcases scopes.pou with ⟨block, _ | (method | property)⟩ | program | function <;> rfl
  have noMember := OpenPou.memberRegister?_none scopes.pou.member?_closeMember
  rw [Registers.closeMember, closeScope_registers]
  simp [registers, register, noMember]

theorem setBody_registers (body : Body) :
    (scopes.registers closed).setBody (scopes.pou.target closed) body =
      Scopes.registers { scopes with pou := scopes.pou.setBody body } closed := by
  simp only [Registers.setBody, OpenPou.target, OpenPou.setImplementation_same, registers,
    OpenPou.identity_setBody]

theorem setUnsupported_registers (statements : List Statement) (text : List Char)
    (line : SourceLine) :
    let body := { scopes.pou.body with statements }
    let unsupported := body.unsupported ++ [⟨String.ofList text, line.number⟩]
    (scopes.registers closed).setUnsupported (scopes.pou.target closed) { body with unsupported }
        line =
      (State.recordUnsupported { scopes with pou := scopes.pou.setBody body } text line).registers
        closed := by
  intro body unsupported
  simp only [Registers.setUnsupported, State.recordUnsupported, OpenPou.body_setBody,
    OpenPou.setBody_setBody, OpenPou.raw_target, OpenPou.member?_setBody, unsupported]
  generalize ({ body with unsupported := body.unsupported ++ [_] } : Body) = whole
  cases isOpen : scopes.pou.member? with
  | none => exact scopes.setBody_registers closed _
  | some member =>
    simp only [Option.map_some, registers_copiedLine]
    split
    · exact scopes.setBody_registers closed _
    · have stillOpen : (scopes.pou.setBody whole).member? = some (member.setBody whole) := by
        rw [OpenPou.member?_setBody, isOpen, Option.map_some]
      obtain ⟨identity, -⟩ :=
        OpenPou.setMember_same stillOpen (String.ofList (trim line.raw) ++ "\n")
      rw [OpenPou.identity_setBody] at identity
      simp only [OpenPou.target, OpenPou.setImplementation_append isOpen, registers, identity]

end Scopes

namespace State

variable {state : State} {scopes : Scopes}

theorem registers_of_current (current : state.current = some scopes) :
    state.registers = scopes.registers state.document := by
  rw [registers, current]

theorem registers_of_closed (closed : state.current = none) :
    state.registers =
      { document := state.document.unreported, reported := state.document.diagnostics } := by
  rw [registers, closed]

variable (state)

theorem registers_setScopes (scopes : Scopes) :
    (state.setScopes scopes).registers = scopes.registers state.document := rfl

theorem registers_report (diagnostics : List Diagnostic) :
    (state.report diagnostics).registers = state.registers.report diagnostics := by
  obtain ⟨document, _ | scopes⟩ := state
  · rfl
  · exact scopes.registers_report document diagnostics

theorem registers_dropPending : state.dropPending.registers = state.registers.dropPending := by
  cases current : state.current with
  | none =>
    rw [dropPending, current, registers_of_closed current]
    simp [Registers.dropPending, Builder.dropPending, Registers.report]
  | some scopes =>
    rw [dropPending_of_open current, registers_report, registers_setScopes,
      registers_of_current current]
    rfl

theorem registers_closePou (current : state.current = some scopes) :
    state.closePou.registers = state.registers.closePou := by
  rw [registers_of_current current, scopes.closePou_registers, closePou, current]
  simp only [registers, Document.unreported_report]
  simp [Document.report, Document.diagnostics_addPou]

theorem registers_closing (word : ClosingWord) :
    mirrored (state.closing word) = state.registers.closing word := by
  cases current : state.current with
  | none =>
    rw [closing, current, registers_of_closed current]
    cases word <;> simp [mirrored, Registers.closing, registers_of_closed current]
  | some scopes =>
    have registers := registers_of_current current
    cases word with
    | var =>
      cases opened : scopes.varSection <;>
        simp [closing, Registers.closing, mirrored, current, registers, opened]
      rw [registers_setScopes]
      simp [Scopes.registers]
    | pou kind =>
      simp only [closing, current, Registers.closing, registers, Scopes.registers_pou,
        OpenPou.register_eq]
      split
      · rw [mirrored, registers_closePou state current, registers]
      · rw [mirrored, registers]
    | get | set =>
      cases member : scopes.pou.member? with
      | none =>
        simp [closing, Registers.closing, mirrored, current, registers, member,
          OpenPou.memberRegister?_none member]
      | some member' =>
        obtain ⟨index, register⟩ := OpenPou.memberRegister?_some member
        simp only [closing, Registers.closing, current, registers, member, register,
          Scopes.registers_member, Option.any_some, decide_eq_true_eq]
        split <;> rw [mirrored, registers]
    | method | property =>
      cases member : scopes.pou.member? with
      | none =>
        simp [closing, Registers.closing, mirrored, current, registers, member,
          OpenPou.memberRegister?_none member]
      | some member' =>
        obtain ⟨index, register⟩ := OpenPou.memberRegister?_some member
        simp only [closing, Registers.closing, current, registers, member, register,
          Scopes.registers_member]
        split
        · rw [mirrored, registers_report, registers_setScopes, scopes.closeMember_registers,
            Scopes.registers_report]
        · rw [mirrored, registers]

theorem registers_openPou (header : PouHeader) (pos : Position) :
    mirrored (state.openPou header pos) = state.registers.openPou header pos := by
  cases current : state.current with
  | none =>
    rw [openPou, current, registers_of_closed current]
    obtain ⟨kind, name, returnType, base, interfaces⟩ := header
    cases kind <;>
      simp [mirrored, registers_setScopes, Scopes.registers, Registers.openPou,
        OpenPou.ofHeader, Document.appendPou, Document.addPou, OpenPou.closeMember,
        OpenPou.identity, OpenPou.Identity.register, OpenPou.Identity.memberRegister?,
        Document.pous, Document.unreported]
  | some scopes =>
    rw [openPou, current, mirrored, registers_of_current current]
    rfl

theorem memberOwner_refused (noBlock : state.freeBlock? = none) (kind : Construct) :
    ∃ problem, state.registers.memberOwner kind = .error problem ∧
      ∀ member : Member, member.construct = kind → ∀ problems,
        state.openMember member problems = (state, some problem) := by
  cases current : state.current with
  | none =>
    refine ⟨.memberOutsideFunctionBlock kind, ?_, ?_⟩
    · rw [registers_of_closed current]
      rfl
    · rintro member rfl problems
      simp [openMember, current]
  | some scopes =>
    rw [registers_of_current current]
    simp only [Registers.memberOwner, Scopes.registers_pou, Scopes.registers_member,
      OpenPou.register_eq]
    rcases owner : scopes.pou with ⟨block, _ | inner⟩ | program | function
    · simp [freeBlock?, pou?, current, owner] at noBlock
    · have isOpen : (OpenPou.functionBlock block (some inner)).member? = some inner := rfl
      obtain ⟨index, register⟩ := OpenPou.memberRegister?_some isOpen
      refine ⟨.nestedMember kind, by simp [OpenPou.kind, register], ?_⟩
      rintro member rfl problems
      simp [openMember, current, owner]
    all_goals
      refine ⟨.memberOutsideFunctionBlock kind, by simp [OpenPou.kind], ?_⟩
      rintro member rfl problems
      simp [openMember, current, owner]

theorem memberOwner_free {block : FunctionBlock} (current : state.current = some scopes)
    (owner : scopes.pou = .functionBlock block none) (kind : Construct) :
    state.registers.memberOwner kind =
      .ok (Scopes.registers { scopes with varSection := none, builder := {} }
        (state.document.report scopes.unfinished), state.document.functionBlocks.length) := by
  have noMember : (OpenPou.functionBlock block none).member? = none := rfl
  rw [registers_of_current current]
  simp only [Registers.memberOwner, Scopes.registers_pou, Scopes.registers_member,
    OpenPou.register_eq, owner, Scopes.closeScope_registers]
  simp [OpenPou.kind, OpenPou.memberRegister?_none noMember, Document.pous]

theorem freeBlock?_eq_some {block : FunctionBlock} (free : state.freeBlock? = some block) :
    ∃ scopes, state.current = some scopes ∧ scopes.pou = .functionBlock block none := by
  cases current : state.current with
  | none => simp [freeBlock?, pou?, current] at free
  | some scopes =>
    rcases owner : scopes.pou with ⟨inner, _ | member⟩ | program | function <;>
      simp [freeBlock?, pou?, current, owner] at free
    rw [free] at owner
    exact ⟨scopes, rfl, owner⟩

theorem registers_openMethod (header : MethodHeader) (pos : Position) :
    mirrored (state.openMethod header pos) = state.registers.openMethod header pos := by
  cases free : state.freeBlock? with
  | none =>
    obtain ⟨problem, noOwner, refused⟩ := state.memberOwner_refused free .method
    rw [openMethod, refused _ rfl, Registers.openMethod, noOwner]
    rfl
  | some block =>
    obtain ⟨scopes, current, owner⟩ := state.freeBlock?_eq_some free
    rw [Registers.openMethod, state.memberOwner_free current owner]
    simp only [openMethod, openMember, current, owner, mirrored, registers_setScopes, report,
      ← Scopes.registers_report, Scopes.registers_document, Document.report_report,
      Document.block_report_addPou]
    rw [Document.setBlock_report_addPou]
    simp only [List.length_append, List.length_singleton, Nat.add_sub_cancel]
    rfl

theorem registers_openProperty (header : PropertyHeader) (pos : Position) :
    mirrored (state.openProperty header pos) = state.registers.openProperty header pos := by
  cases free : state.freeBlock? with
  | none =>
    obtain ⟨problem, noOwner, refused⟩ := state.memberOwner_refused free .property
    rw [openProperty, refused _ rfl, Registers.openProperty, noOwner]
    rfl
  | some block =>
    obtain ⟨scopes, current, owner⟩ := state.freeBlock?_eq_some free
    rw [Registers.openProperty, state.memberOwner_free current owner]
    simp only [openProperty, openMember, current, owner, mirrored, registers_setScopes, report,
      Scopes.registers_document, List.append_nil, Document.block_report_addPou]
    rw [Document.setBlock_report_addPou]
    simp only [List.length_append, List.length_singleton, Nat.add_sub_cancel]
    rfl

theorem registers_openSection (header : SectionHeader) (pos : Position) :
    mirrored (state.openSection header pos) = state.registers.openSection header pos := by
  cases current : state.current with
  | none =>
    rw [openSection, current, mirrored, registers_of_closed current]
    rfl
  | some scopes =>
    rw [openSection, current, mirrored, registers_of_current current, registers_setScopes]
    simp only [report, Scopes.registers_report]
    rfl

theorem registers_boundary (pos : Position) (boundary : Boundary) :
    mirrored (state.boundary pos boundary) = state.registers.boundary pos boundary := by
  cases boundary with
  | closing word => exact state.registers_closing word
  | pou header => exact state.registers_openPou header pos
  | method header => exact state.registers_openMethod header pos
  | property header => exact state.registers_openProperty header pos
  | varSection header => exact state.registers_openSection header pos

theorem registers_declare (current : state.current = some scopes) (header : SectionHeader)
    (text : List Char) (line : Nat) (comment : Option String) :
    mirrored (state.declare scopes header text line comment) =
      state.registers.declaration header text line comment := by
  have registers := registers_of_current current
  rw [declare, Registers.declaration, registers]
  cases header.scope? with
  | none => rw [mirrored, registers]
  | some scope =>
    cases Declaration.read? text with
    | none => rw [mirrored, registers]
    | some declaration =>
      simp only [mirrored, registers_setScopes]
      rw [scopes.foldl_addVariable_registers]

theorem registers_statement (current : state.current = some scopes) (text : List Char)
    (pos : Position) (line : SourceLine) :
    mirrored (state.statement scopes text pos line) = state.registers.statement text pos line := by
  rw [registers_of_current current]
  simp only [statement, Registers.statement, Scopes.registers_pou, Scopes.registers_member,
    Scopes.registers_document, Scopes.registers_builder, OpenPou.bodyTarget?_eq,
    OpenPou.body_target]
  -- Both sides feed the same body, so only what they store of the answer is compared.
  generalize scopes.builder.feed scopes.pou.body.statements text pos = outcome
  obtain ⟨builder, root, result, reported⟩ := outcome
  let closed := state.document.report reported
  have fed : { scopes.registers state.document with builder }.report reported =
      Scopes.registers { scopes with builder } closed := by
    rw [Scopes.registers_report]
    rfl
  have target : scopes.pou.target state.document = scopes.pou.target closed := by
    rw [OpenPou.target_report]
  have stored := Scopes.setBody_registers { scopes with builder } closed
  have recorded := Scopes.setUnsupported_registers { scopes with builder } closed root
  cases result with
  | error problem =>
    simp only [mirrored, registers_setScopes, report]
    rw [← stored, ← fed, ← target]
    rfl
  | ok result =>
    cases result with
    | unsupported text =>
      simp only [mirrored, registers_setScopes, report]
      rw [← recorded, ← fed, ← target]
      rfl
    | statement | pending =>
      simp only [mirrored, registers_setScopes, report]
      rw [← stored, ← fed, ← target]
      rfl

theorem registers_content (text : List Char) (pos : Position) (line : SourceLine)
    (comment : Option String) :
    mirrored (state.content text pos line comment) =
      state.registers.content text pos line comment := by
  cases current : state.current with
  | none =>
    have registers := registers_of_closed current
    simp [content, current, Registers.content, registers, mirrored, Registers.openProperty?,
      Registers.statement]
  | some scopes =>
    have registers := registers_of_current current
    have asCode := state.registers_statement current text pos line
    simp only [content, current, Registers.content]
    rw [← asCode]
    simp only [registers, Scopes.registers_varSection, Scopes.openProperty?_eq]
    cases opened : scopes.varSection with
    | some opened =>
      simp only
      rw [← registers, state.registers_declare current]
    | none =>
      cases Accessor.read? text with
      | none => rcases scopes.pou with ⟨block, _ | (method | property)⟩ | program | function <;> rfl
      | some accessor =>
        rcases owner : scopes.pou with ⟨block, _ | (method | property)⟩ | program | function <;>
          simp only [Scopes.property?, owner]
        rw [mirrored, registers_setScopes]
        simp only [Scopes.registers, owner]
        cases accessor <;> rfl

end State

namespace Registers

theorem fragment_eq (registers : Registers) (step : Step) :
    registers.fragment step.line step.fragment step.next =
      if step.text = [] then (registers, none)
      else
        match step.boundary? with
        | some boundary => registers.dropPending.boundary step.pos boundary
        | none => registers.content step.text step.pos step.line step.comment := rfl

def step (registers : Registers) (step : Step) : Registers :=
  let (registers, problem) := registers.fragment step.line step.fragment step.next
  registers.report (problem.map fun problem => problem.at step.start).toList

def run (registers : Registers) (steps : List Step) : Registers :=
  steps.foldl Registers.step registers

theorem fragments_eq_run (registers : Registers) (line : SourceLine) (fragments : List Fragment) :
    registers.fragments line fragments = registers.run (lineSteps line fragments) := by
  induction fragments generalizing registers with
  | nil => rfl
  | cons fragment rest ih =>
    simp only [Registers.fragments, lineSteps]
    rw [ih]
    rfl

end Registers

namespace State

variable (state : State)

theorem registers_fragment (step : Step) :
    mirrored (state.fragment step.line step.fragment step.next) =
      state.registers.fragment step.line step.fragment step.next := by
  rw [fragment_eq, Registers.fragment_eq]
  split
  · rfl
  · cases step.boundary? with
    | some boundary => rw [registers_boundary, registers_dropPending]
    | none => exact state.registers_content step.text step.pos step.line step.comment

theorem registers_step (step : Step) : (state.step step).registers = state.registers.step step := by
  rw [Registers.step, ← registers_fragment]
  exact State.registers_report (state.fragment step.line step.fragment step.next).1 _

theorem registers_run (steps : List Step) :
    (state.run steps).registers = state.registers.run steps := by
  induction steps generalizing state with
  | nil => rfl
  | cons step steps ih =>
    rw [run_cons, ih, registers_step]
    rfl

theorem registers_finish (lastLine : Nat) (comment : Option OpenComment) :
    state.registers.finish lastLine comment =
      state.finish.report
        (comment.map fun _ => ⟨.unterminatedComment, lastLine, none⟩).toList := by
  cases current : state.current with
  | none =>
    rw [finish, current, registers_of_closed current]
    rfl
  | some scopes =>
    rw [finish, current, registers_of_current current, closePou, current]
    simp only [Registers.finish, Scopes.registers_pou, Scopes.closePou_registers]
    simp [OpenPou.register_eq, Registers.report, Document.report, Document.unreported]

theorem registers_line (line : SourceLine) :
    (state.line line).registers = state.registers.line line := by
  rw [State.line, fragments_eq_run, registers_run, Registers.line, Registers.fragments_eq_run]

end State

def Progress.registers (progress : Progress) : RegisterProgress :=
  { count := progress.count, comment := progress.comment, registers := progress.state.registers }

theorem Progress.registers_line (progress : Progress) (raw : List Char) :
    (progress.line raw).registers = progress.registers.line raw := by
  simp only [Progress.line, RegisterProgress.line, registers, apply_ite State.registers,
    State.registers_line]
  rfl

theorem parseRegisters_eq_parse (source : String) : parseRegisters source = parse source := by
  have read : (lines source.toList).foldl RegisterProgress.line {} =
      ((lines source.toList).foldl Progress.line {}).registers := by
    rw [← List.foldl_hom Progress.registers fun progress raw => (progress.registers_line raw).symm]
    rfl
  rw [parseRegisters, read]
  exact State.registers_finish _ _ _

end StructuredText
