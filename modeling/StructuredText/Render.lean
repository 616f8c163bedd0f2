import StructuredText.Model.Basic
import StructuredText.Text.Split

set_option autoImplicit false

namespace StructuredText

inductive CodeLine where
  | assignment (target expression : String)
  | ifThen (condition : String)
  | elsif (condition : String)
  | otherwise
  | endIf
  deriving DecidableEq

namespace CodeLine

def text : CodeLine → String
  | assignment target expression => target ++ " := " ++ expression ++ ";"
  | ifThen condition => "IF " ++ condition ++ " THEN"
  | elsif condition => "ELSIF " ++ condition ++ " THEN"
  | otherwise => "ELSE"
  | endIf => "END_IF;"

end CodeLine

mutual

def Statement.codeLines (depth : Nat) : Statement → List (Nat × CodeLine)
  | .assignment target expression _ => [(depth, .assignment target expression)]
  | .conditional node => Conditional.codeLines depth node

def Conditional.codeLines (depth : Nat) : Conditional → List (Nat × CodeLine)
  | ⟨condition, thenBranch, elsifBranches, elseBranch, _⟩ =>
    (depth, .ifThen condition) :: statementLines (depth + 1) thenBranch ++
      elsifLines depth elsifBranches ++
      (match elseBranch with
        | none => []
        | some statements => (depth, .otherwise) :: statementLines (depth + 1) statements) ++
      [(depth, .endIf)]

def statementLines (depth : Nat) : List Statement → List (Nat × CodeLine)
  | [] => []
  | statement :: statements => statement.codeLines depth ++ statementLines depth statements

def elsifLines (depth : Nat) : List ElsifBranch → List (Nat × CodeLine)
  | [] => []
  | ⟨condition, statements, _⟩ :: branches =>
    (depth, .elsif condition) :: statementLines (depth + 1) statements ++ elsifLines depth branches

end

def unlines (lines : List String) : String :=
  String.join (lines.map (· ++ "\n"))

def padding (depth : Nat) (indent : String) : String :=
  String.join (List.replicate depth indent)

def renderLines (statements : List Statement) (depth : Nat) (indent : String) : List String :=
  (statementLines depth statements).map fun (depth, line) => padding depth indent ++ line.text

def renderStatements (statements : List Statement) (depth : Nat) (indent : String) : String :=
  unlines (renderLines statements depth indent)

namespace Variable

def declaration (v : Variable) : String :=
  let value :=
    match v.initialValue with
    | some value => " := " ++ value
    | none => ""
  let comment :=
    match v.comment with
    | some comment => " // " ++ comment
    | none => ""
  v.name ++ " : " ++ v.type ++ value ++ ";" ++ comment

end Variable

def sectionLines (vars : List Variable) (indent : String) : List String :=
  Scope.all.flatMap fun scope =>
    let members := vars.filter fun v => v.scope = scope
    if members.isEmpty then []
    else scope.keyword :: members.map (fun v => indent ++ v.declaration) ++ ["END_VAR"]

def memberBodyLines (body : Body) (implementation : String) (indent : String) : List String :=
  if body.statements.isEmpty then
    (lines implementation.toList).map fun line =>
      if line.isEmpty then "" else indent ++ String.ofList line
  else renderLines body.statements 1 indent

def Method.lines (method : Method) (indent : String) : List String :=
  let returnType :=
    match method.returnType with
    | some type => " : " ++ type
    | none => ""
  ("METHOD " ++ method.name ++ returnType) ::
    sectionLines (method.parameters ++ method.locals) indent ++
    memberBodyLines method.body method.implementation indent ++
    ["END_METHOD"]

def Property.lines (property : Property) (indent : String) : List String :=
  ("PROPERTY " ++ property.name ++ " : " ++ property.type) ::
    (if property.hasGetter then ["GET"] else []) ++
    (if property.hasSetter then ["SET"] else []) ++
    memberBodyLines property.body property.implementation indent ++
    ["END_PROPERTY"]

def FunctionBlock.lines (block : FunctionBlock) (indent : String) : List String :=
  let statements := renderLines block.body.statements 0 indent
  let members := block.methods.map (·.lines indent) ++ block.properties.map (·.lines indent)
  [""].intercalate ((statements :: members).filter fun part => !part.isEmpty)

end StructuredText
