import StructuredText.Json
import StructuredText.Outline

set_option autoImplicit false

namespace StructuredText

open Json

def Variable.toJson (v : Variable) : Json :=
  .obj <|
    [("name", .str v.name), ("type", .str v.type), ("scope", .str v.scope.keyword)] ++
    field? "initialValue" (v.initialValue.map .str) ++
    field? "comment" (v.comment.map .str) ++
    [("lineNumber", .num v.line)]

mutual

def Statement.toJson : Statement → Json
  | .assignment target expression line =>
    .obj [("type", .str "assignment"), ("targetVariable", .str target),
      ("sourceExpression", .str expression), ("lineNumber", .num line)]
  | .conditional node => Conditional.toJson node

-- An empty list of ELSIF branches is left out. An empty ELSE branch is not, since it differs from a
-- missing one.
def Conditional.toJson : Conditional → Json
  | ⟨condition, thenBranch, elsifBranches, elseBranch, line⟩ =>
    .obj <|
      [("type", .str "if"), ("condition", .str condition),
        ("thenStatements", .arr (statementsToJson thenBranch))] ++
      nonempty? "elseIfStatements" (elsifBranchesToJson elsifBranches) ++
      (match elseBranch with
        | none => []
        | some statements => [("elseStatements", .arr (statementsToJson statements))]) ++
      [("lineNumber", .num line)]

def statementsToJson : List Statement → List Json
  | [] => []
  | statement :: statements => statement.toJson :: statementsToJson statements

def elsifBranchesToJson : List ElsifBranch → List Json
  | [] => []
  | ⟨condition, statements, line⟩ :: branches =>
    .obj [("condition", .str condition), ("statements", .arr (statementsToJson statements)),
      ("lineNumber", .num line)] :: elsifBranchesToJson branches

end

def Unsupported.toJson (entry : Unsupported) : Json :=
  .obj [("text", .str entry.text), ("lineNumber", .num entry.line)]

def Body.fields (body : Body) : List (String × Json) :=
  ("statements", .arr (statementsToJson body.statements)) ::
    nonempty? "unsupported" (body.unsupported.map Unsupported.toJson)

def Position.fields (pos : Position) : List (String × Json) :=
  [("lineNumber", .num pos.line), ("columnStart", .num pos.column)]

def varsField (name : String) (vars : List Variable) : String × Json :=
  (name, .arr (vars.map Variable.toJson))

def Method.toJson (method : Method) : Json :=
  .obj <|
    [("name", .str method.name)] ++
    field? "returnType" (method.returnType.map .str) ++
    [varsField "parameters" method.parameters,
      varsField "localVariables" method.locals] ++
    method.body.fields ++
    [("implementation", .str method.implementation)] ++
    method.pos.fields

def Property.toJson (property : Property) : Json :=
  .obj <|
    [("name", .str property.name), ("type", .str property.type),
      ("hasGetter", .bool property.hasGetter), ("hasSetter", .bool property.hasSetter)] ++
    property.body.fields ++
    [("implementation", .str property.implementation)] ++
    property.pos.fields

def FunctionBlock.toJson (block : FunctionBlock) : Json :=
  .obj <|
    [("name", .str block.name)] ++
    field? "extends" (block.base.map .str) ++
    nonempty? "implements" (block.interfaces.map .str) ++
    [varsField "variables" block.vars,
      ("methods", .arr (block.methods.map Method.toJson)),
      ("properties", .arr (block.properties.map Property.toJson))] ++
    block.body.fields ++
    block.pos.fields

def Program.toJson (program : Program) : Json :=
  .obj <|
    [("name", .str program.name), varsField "variables" program.vars] ++
    program.body.fields ++
    program.pos.fields

def Function.toJson (function : Function) : Json :=
  .obj <|
    [("name", .str function.name)] ++
    field? "returnType" (function.returnType.map .str) ++
    [varsField "parameters" function.parameters,
      varsField "localVariables" function.locals] ++
    function.body.fields ++
    function.pos.fields

def Construct.tag : Construct → String
  | functionBlock => "functionBlock"
  | program => "program"
  | function => "function"
  | method => "method"
  | property => "property"

def Problem.code : Problem → String
  | nestedPou => "nestedPou"
  | nestedMember _ => "nestedMember"
  | memberOutsideFunctionBlock _ => "memberOutsideFunctionBlock"
  | unclosed .. => "unclosed"
  | unclosedIf => "unclosedIf"
  | unclosedSection _ => "unclosedSection"
  | unterminatedComment => "unterminatedComment"
  | malformedDeclaration _ => "malformedDeclaration"
  | invalidParameter _ => "invalidParameter"
  | sectionOutsidePou => "sectionOutsidePou"
  | unexpectedKeyword _ => "unexpectedKeyword"
  | mismatchedEnd .. => "mismatchedEnd"
  | elsifAfterElse => "elsifAfterElse"
  | duplicateElse => "duplicateElse"
  | unterminatedStatement _ => "unterminatedStatement"
  | missingSemicolon => "missingSemicolon"
  | missingCondition _ => "missingCondition"

def Problem.detail : Problem → Option Json
  | nestedMember kind | memberOutsideFunctionBlock kind => some (.str kind.tag)
  | unclosed kind name => some (.obj [("kind", .str kind.tag), ("name", .str name)])
  | mismatchedEnd found kind name =>
    some (.obj [("found", .str found), ("kind", .str kind.tag), ("name", .str name)])
  | unclosedSection text | malformedDeclaration text | invalidParameter text
  | unexpectedKeyword text | unterminatedStatement text | missingCondition text =>
    some (.str text)
  | nestedPou | unclosedIf | unterminatedComment | sectionOutsidePou | elsifAfterElse
  | duplicateElse | missingSemicolon => none

def Problem.toJson (problem : Problem) : Json :=
  .obj (("code", .str problem.code) :: field? "detail" problem.detail)

def Diagnostic.toJson (diagnostic : Diagnostic) : Json :=
  .obj <|
    [("kind", diagnostic.problem.toJson), ("message", .str diagnostic.message),
      ("lineNumber", .num diagnostic.line)] ++
    field? "columnStart" (diagnostic.column.map .num)

def Document.toJson (document : Document) : Json :=
  .obj [("functionBlocks", .arr (document.functionBlocks.map FunctionBlock.toJson)),
    ("programs", .arr (document.programs.map Program.toJson)),
    ("functions", .arr (document.functions.map Function.toJson)),
    ("errors", .arr (document.diagnostics.map Diagnostic.toJson))]

def OutlineEntry.toJson (entry : OutlineEntry) : Json :=
  .obj <|
    [("kind", .str entry.kind.tag), ("name", .str entry.name)] ++
    field? "detail" (entry.detail.map .str) ++
    [("lineNumber", .num entry.line), ("depth", .num entry.depth)]

end StructuredText
