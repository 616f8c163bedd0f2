import StructuredText.Model.Document

set_option autoImplicit false

namespace StructuredText

structure OutlineEntry where
  kind : Construct
  name : String
  detail : Option String
  line : Nat
  -- Members stand one level below their function block.
  depth : Nat
  deriving DecidableEq

namespace OutlineEntry

def ofMethod (method : Method) : OutlineEntry :=
  let parameters := method.parameters.map fun parameter => parameter.name ++ " : " ++ parameter.type
  let returnType :=
    match method.returnType with
    | some type => " : " ++ type
    | none => ""
  { kind := .method, name := method.name,
    detail := some ("(" ++ ", ".intercalate parameters ++ ")" ++ returnType),
    line := method.pos.line, depth := 1 }

def ofProperty (property : Property) : OutlineEntry :=
  let accessors :=
    match property.hasGetter, property.hasSetter with
    | true, true => " (GET, SET)"
    | true, false => " (GET)"
    | false, true => " (SET)"
    | false, false => ""
  { kind := .property, name := property.name, detail := some (": " ++ property.type ++ accessors),
    line := property.pos.line, depth := 1 }

def ofFunctionBlock (block : FunctionBlock) : OutlineEntry :=
  let base := (block.base.map fun base => "EXTENDS " ++ base).toList
  let interfaces :=
    if block.interfaces.isEmpty then [] else ["IMPLEMENTS " ++ ", ".intercalate block.interfaces]
  let clauses := base ++ interfaces
  { kind := .functionBlock, name := block.name,
    detail := if clauses.isEmpty then none else some (" ".intercalate clauses),
    line := block.pos.line, depth := 0 }

def ofProgram (program : Program) : OutlineEntry :=
  { kind := .program, name := program.name, detail := none, line := program.pos.line, depth := 0 }

def ofFunction (function : Function) : OutlineEntry :=
  { kind := .function, name := function.name,
    detail := function.returnType.map fun type => ": " ++ type,
    line := function.pos.line, depth := 0 }

end OutlineEntry

structure OutlineGroup where
  head : OutlineEntry
  members : List OutlineEntry := []
  deriving DecidableEq

namespace OutlineGroup

def entries (group : OutlineGroup) : List OutlineEntry :=
  group.head :: group.members

def ofFunctionBlock (block : FunctionBlock) : OutlineGroup where
  head := .ofFunctionBlock block
  members :=
    (block.methods.map OutlineEntry.ofMethod ++
      block.properties.map OutlineEntry.ofProperty).mergeSort
      fun a b => decide (a.line ≤ b.line)

end OutlineGroup

def Document.outline (document : Document) : List OutlineEntry :=
  let groups :=
    document.functionBlocks.map OutlineGroup.ofFunctionBlock ++
      document.programs.map (fun program => { head := .ofProgram program }) ++
      document.functions.map (fun function => { head := .ofFunction function })
  (groups.mergeSort fun a b => decide (a.head.line ≤ b.head.line)).flatMap OutlineGroup.entries

end StructuredText
