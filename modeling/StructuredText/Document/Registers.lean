import StructuredText.Document.State

set_option autoImplicit false

namespace StructuredText

structure PouRegister where
  kind : PouKind
  index : Nat
  name : String
  pos : Position
  deriving DecidableEq

structure MemberRegister where
  kind : Construct
  index : Nat
  name : String
  pos : Position
  deriving DecidableEq

/-- A reading that writes at once into the document. What is open is named by registers, and each
use of a register looks it up in the document. -/
structure Registers where
  document : Document := {}
  reported : List Diagnostic := []
  pou : Option PouRegister := none
  member : Option MemberRegister := none
  varSection : Option OpenSection := none
  builder : Builder := {}
  copiedLine : Option Nat := none

namespace Document

def setBlock (document : Document) (index : Nat) (block : FunctionBlock) : Document :=
  { document with functionBlocks := document.functionBlocks.set index block }

def setProgram (document : Document) (index : Nat) (program : Program) : Document :=
  { document with programs := document.programs.set index program }

def setFunction (document : Document) (index : Nat) (function : Function) : Document :=
  { document with functions := document.functions.set index function }

end Document

def FunctionBlock.setMethod (block : FunctionBlock) (index : Nat) (method : Method) :
    FunctionBlock :=
  { block with methods := block.methods.set index method }

def FunctionBlock.setProperty (block : FunctionBlock) (index : Nat) (property : Property) :
    FunctionBlock :=
  { block with properties := block.properties.set index property }

structure BodyTarget where
  body : Body
  raw : Option String
  store : Body → Option String → Document

def Document.bodyTarget? (document : Document) (pou : PouRegister)
    (member : Option MemberRegister) : Option BodyTarget :=
  match pou.kind, member with
  | .functionBlock, some member =>
    document.functionBlocks[pou.index]?.bind fun block =>
      if member.kind = .property then
        block.properties[member.index]?.map fun property =>
          { body := property.body
            raw := some property.implementation
            store := fun body raw =>
              let implementation := raw.getD property.implementation
              document.setBlock pou.index
                (block.setProperty member.index { property with body, implementation }) }
      else
        block.methods[member.index]?.map fun method =>
          { body := method.body
            raw := some method.implementation
            store := fun body raw =>
              let implementation := raw.getD method.implementation
              document.setBlock pou.index
                (block.setMethod member.index { method with body, implementation }) }
  | .functionBlock, none =>
    document.functionBlocks[pou.index]?.map fun block =>
      { body := block.body
        raw := none
        store := fun body _ => document.setBlock pou.index { block with body } }
  | .program, _ =>
    document.programs[pou.index]?.map fun program =>
      { body := program.body
        raw := none
        store := fun body _ => document.setProgram pou.index { program with body } }
  | .function, _ =>
    document.functions[pou.index]?.map fun function =>
      { body := function.body
        raw := none
        store := fun body _ => document.setFunction pou.index { function with body } }

def Document.appendPou (document : Document) (header : PouHeader) (pos : Position) :
    Document × Nat :=
  match header.kind with
  | .functionBlock =>
    let block : FunctionBlock :=
      { name := header.name, base := header.base, interfaces := header.interfaces, pos }
    let functionBlocks := document.functionBlocks ++ [block]
    ({ document with functionBlocks }, functionBlocks.length - 1)
  | .program =>
    let programs := document.programs ++ [{ name := header.name, pos }]
    ({ document with programs }, programs.length - 1)
  | .function =>
    let function : Function := { name := header.name, returnType := header.returnType, pos }
    let functions := document.functions ++ [function]
    ({ document with functions }, functions.length - 1)

namespace Registers

def variableSink? (registers : Registers) : Option (Variable → Document) :=
  registers.pou.bind fun pou =>
    let document := registers.document
    match pou.kind, registers.member with
    | .functionBlock, some member =>
      document.functionBlocks[pou.index]?.bind fun block =>
        if member.kind = .method then
          block.methods[member.index]?.map fun method v =>
            if v.scope = .temp then
              document.setBlock pou.index
                (block.setMethod member.index { method with locals := method.locals ++ [v] })
            else document.setBlock pou.index (block.addVariable v)
        else some fun v => document.setBlock pou.index (block.addVariable v)
    | .functionBlock, none =>
      document.functionBlocks[pou.index]?.map fun block v =>
        document.setBlock pou.index (block.addVariable v)
    | .program, _ =>
      document.programs[pou.index]?.map fun program v =>
        document.setProgram pou.index { program with vars := program.vars ++ [v] }
    | .function, _ =>
      document.functions[pou.index]?.map fun function v =>
        if v.scope.isParameter then
          document.setFunction pou.index { function with parameters := function.parameters ++ [v] }
        else document.setFunction pou.index { function with locals := function.locals ++ [v] }

def openProperty? (registers : Registers) : Option (Property × (Property → Document)) :=
  registers.pou.bind fun pou =>
    registers.member.bind fun member =>
      if pou.kind ≠ .functionBlock ∨ member.kind ≠ .property then none
      else
        registers.document.functionBlocks[pou.index]?.bind fun block =>
          block.properties[member.index]?.map fun property =>
            (property, fun property =>
              registers.document.setBlock pou.index (block.setProperty member.index property))

def report (registers : Registers) (diagnostics : List Diagnostic) : Registers :=
  { registers with reported := registers.reported ++ diagnostics }

def dropPending (registers : Registers) : Registers :=
  let (builder, diagnostics) := registers.builder.dropPending
  { registers with builder }.report diagnostics

def closeScope (registers : Registers) : Registers :=
  { registers with varSection := none, builder := {} }.report
    ((registers.varSection.map OpenSection.unclosed).toList ++ registers.builder.close)

def closeMember (registers : Registers) : Registers :=
  { registers.closeScope with member := none, copiedLine := none }

def closePou (registers : Registers) : Registers :=
  let registers :=
    match registers.member with
    | none => registers
    | some member =>
      { registers with member := none }.closeScope.report
        [(Problem.unclosed member.kind member.name).at member.pos]
  { registers.closeScope with pou := none, copiedLine := none }

def closing (registers : Registers) (word : ClosingWord) : Registers × Option Problem :=
  let unexpected := (registers, some (Problem.unexpectedKeyword word.keyword))
  let closeMember (expected : Construct) :=
    match registers.member with
    | none => unexpected
    | some member =>
      if member.kind = expected then (registers.closeMember, none)
      else (registers, some (.mismatchedEnd word.keyword member.kind member.name))
  match word with
  | .var =>
    match registers.varSection with
    | none => unexpected
    | some _ => ({ registers with varSection := none }, none)
  | .get | .set =>
    match registers.member with
    | none => unexpected
    | some member => if member.kind = .property then (registers, none) else unexpected
  | .method => closeMember .method
  | .property => closeMember .property
  | .pou kind =>
    match registers.pou with
    | none => unexpected
    | some pou =>
      if pou.kind = kind then (registers.closePou, none)
      else (registers, some (.mismatchedEnd word.keyword pou.kind.construct pou.name))

def openPou (registers : Registers) (header : PouHeader) (pos : Position) :
    Registers × Option Problem :=
  match registers.pou with
  | some _ => (registers, some .nestedPou)
  | none =>
    let (document, index) := registers.document.appendPou header pos
    let pou : PouRegister := { kind := header.kind, index, name := header.name, pos }
    ({ registers with document, pou := some pou }, none)

def memberOwner (registers : Registers) (kind : Construct) : Except Problem (Registers × Nat) :=
  match registers.pou with
  | none => .error (.memberOutsideFunctionBlock kind)
  | some pou =>
    if pou.kind ≠ .functionBlock then .error (.memberOutsideFunctionBlock kind)
    else if registers.member.isSome then .error (.nestedMember kind)
    else .ok (registers.closeScope, pou.index)

def openMethod (registers : Registers) (header : MethodHeader) (pos : Position) :
    Registers × Option Problem :=
  match registers.memberOwner .method with
  | .error problem => (registers, some problem)
  | .ok (registers, owner) =>
    let registers := registers.report (header.invalidParameters pos)
    match registers.document.functionBlocks[owner]? with
    | none => (registers, none)
    | some block =>
      let method : Method :=
        { name := header.name, returnType := header.returnType,
          parameters := header.inputs pos.line, pos }
      let methods := block.methods ++ [method]
      let member : MemberRegister :=
        { kind := .method, index := methods.length - 1, name := header.name, pos }
      let document := registers.document.setBlock owner { block with methods }
      ({ registers with document, member := some member, copiedLine := none }, none)

def openProperty (registers : Registers) (header : PropertyHeader) (pos : Position) :
    Registers × Option Problem :=
  match registers.memberOwner .property with
  | .error problem => (registers, some problem)
  | .ok (registers, owner) =>
    match registers.document.functionBlocks[owner]? with
    | none => (registers, none)
    | some block =>
      let property : Property := { name := header.name, type := header.type, pos }
      let properties := block.properties ++ [property]
      let member : MemberRegister :=
        { kind := .property, index := properties.length - 1, name := header.name, pos }
      let document := registers.document.setBlock owner { block with properties }
      ({ registers with document, member := some member, copiedLine := none }, none)

def openSection (registers : Registers) (header : SectionHeader) (pos : Position) :
    Registers × Option Problem :=
  if registers.pou.isNone then (registers, some .sectionOutsidePou)
  else
    let registers := registers.report (registers.varSection.map OpenSection.unclosed).toList
    ({ registers with varSection := some ⟨header, pos⟩ }, none)

def boundary (registers : Registers) (pos : Position) : Boundary → Registers × Option Problem
  | .closing word => registers.closing word
  | .pou header => registers.openPou header pos
  | .method header => registers.openMethod header pos
  | .property header => registers.openProperty header pos
  | .varSection header => registers.openSection header pos

def addVariable (registers : Registers) (v : Variable) : Registers :=
  match registers.variableSink? with
  | none => registers
  | some push => { registers with document := push v }

def declaration (registers : Registers) (header : SectionHeader) (text : List Char) (line : Nat)
    (comment : Option String) : Registers × Option Problem :=
  match header.scope? with
  | none => (registers, none)
  | some scope =>
    match Declaration.read? text with
    | none => (registers, some (.malformedDeclaration (String.ofList text)))
    | some declaration =>
      let add (registers : Registers) (name : String) : Registers :=
        registers.addVariable
          { name, type := declaration.type, scope, initialValue := declaration.initialValue,
            comment, line }
      (declaration.names.foldl add registers, none)

def setBody (registers : Registers) (target : BodyTarget) (body : Body) : Registers :=
  { registers with document := target.store body target.raw }

-- The line goes to the raw text once, however many of its fragments are unsupported.
def setUnsupported (registers : Registers) (target : BodyTarget) (body : Body)
    (line : SourceLine) : Registers :=
  match target.raw with
  | none => registers.setBody target body
  | some raw =>
    if registers.copiedLine = some line.number then registers.setBody target body
    else
      let raw := raw ++ (String.ofList (trim line.raw) ++ "\n")
      { registers with document := target.store body (some raw), copiedLine := some line.number }

def statement (registers : Registers) (text : List Char) (pos : Position) (line : SourceLine) :
    Registers × Option Problem :=
  match registers.pou with
  | none => (registers, none)
  | some pou =>
    match registers.document.bodyTarget? pou registers.member with
    | none => (registers, none)
    | some target =>
      let outcome := registers.builder.feed target.body.statements text pos
      let registers := { registers with builder := outcome.builder }.report outcome.reported
      let body := { target.body with statements := outcome.root }
      match outcome.result with
      | .error problem => (registers.setBody target body, some problem)
      | .ok (.unsupported text) =>
        let unsupported := body.unsupported ++ [⟨String.ofList text, line.number⟩]
        (registers.setUnsupported target { body with unsupported } line, none)
      | .ok _ => (registers.setBody target body, none)

def content (registers : Registers) (text : List Char) (pos : Position) (line : SourceLine)
    (comment : Option String) : Registers × Option Problem :=
  match registers.varSection, Accessor.read? text, registers.openProperty? with
  | some opened, _, _ => registers.declaration opened.header text line.number comment
  | none, some accessor, some (property, store) =>
    ({ registers with document := store (property.addAccessor accessor) }, none)
  | none, _, _ => registers.statement text pos line

def fragment (registers : Registers) (line : SourceLine) (fragment : Fragment)
    (stop : Option Nat) : Registers × Option Problem :=
  let text := withoutPragmas fragment.text
  if text = [] then (registers, none)
  else
    let pos := line.position (fragment.stop - width text)
    match Boundary.read? text with
    | some boundary => registers.dropPending.boundary pos boundary
    | none => registers.content text pos line (line.stripped.commentBetween fragment.stop stop)

def fragments (registers : Registers) (line : SourceLine) : List Fragment → Registers
  | [] => registers
  | f :: rest =>
    let (registers, problem) := registers.fragment line f (rest.head?.map Fragment.start)
    let diagnostics := problem.map fun problem => problem.at (line.position f.start)
    (registers.report diagnostics.toList).fragments line rest

def line (registers : Registers) (line : SourceLine) : Registers :=
  registers.fragments line (StructuredText.fragments line.stripped.code)

def finish (registers : Registers) (lastLine : Nat) (comment : Option OpenComment) : Document :=
  let registers :=
    match registers.pou with
    | none => registers
    | some pou =>
      registers.closePou.report [(Problem.unclosed pou.kind.construct pou.name).at pou.pos]
  let unterminated := comment.map fun _ => ⟨.unterminatedComment, lastLine, none⟩
  { registers.document with diagnostics := registers.reported ++ unterminated.toList }

end Registers

structure RegisterProgress where
  count : Nat := 0
  comment : Option OpenComment := none
  registers : Registers := {}

namespace RegisterProgress

def line (progress : RegisterProgress) (raw : List Char) : RegisterProgress :=
  let number := progress.count + 1
  let (stripped, comment) := strip progress.comment raw number
  let registers :=
    if stripped.isEmpty then progress.registers
    else progress.registers.line ⟨raw, stripped, number⟩
  { count := number, comment, registers }

def finish (progress : RegisterProgress) : Document :=
  progress.registers.finish progress.count progress.comment

end RegisterProgress

def parseRegisters (source : String) : Document :=
  ((lines source.toList).foldl RegisterProgress.line {}).finish

end StructuredText
