import StructuredText.Listing
import StructuredText.Model.Document

set_option autoImplicit false

namespace StructuredText

open Listing

def Scope.toListing : Scope → Listing
  | input => atom "Input"
  | output => atom "Output"
  | inOut => atom "InOut"
  | var => atom "Var"
  | temp => atom "Temp"

def Variable.toListing (v : Variable) : Listing :=
  record "Variable" [
    ("name", quoted v.name),
    ("ty", quoted v.type),
    ("scope", v.scope.toListing),
    ("initial_value", optional quoted v.initialValue),
    ("comment", optional quoted v.comment),
    ("line", number v.line)]

def varsToListing (vars : List Variable) : Listing :=
  list (vars.map Variable.toListing)

mutual

def Statement.toListing : Statement → Listing
  | .assignment target expression line =>
    wrap "Assignment" <| record "Assignment" [
      ("target", quoted target),
      ("expression", quoted expression),
      ("line", number line)]
  | .conditional node => wrap "If" (Conditional.toListing node)

def Conditional.toListing : Conditional → Listing
  | ⟨condition, thenBranch, elsifBranches, elseBranch, line⟩ =>
    record "IfStatement" [
      ("condition", quoted condition),
      ("then_branch", list (statementsToListing thenBranch)),
      ("elsif_branches", list (elsifBranchesToListing elsifBranches)),
      ("else_branch",
        match elseBranch with
        | none => atom "None"
        | some statements => wrap "Some" (list (statementsToListing statements))),
      ("line", number line)]

def statementsToListing : List Statement → List Listing
  | [] => []
  | statement :: statements => statement.toListing :: statementsToListing statements

def elsifBranchesToListing : List ElsifBranch → List Listing
  | [] => []
  | ⟨condition, statements, line⟩ :: branches =>
    record "ElsifBranch" [
      ("condition", quoted condition),
      ("statements", list (statementsToListing statements)),
      ("line", number line)] :: elsifBranchesToListing branches

end

def Unsupported.toListing (entry : Unsupported) : Listing :=
  record "UnsupportedStatement" [("text", quoted entry.text), ("line", number entry.line)]

def Body.toListing (body : Body) : Listing :=
  record "Body" [
    ("statements", list (statementsToListing body.statements)),
    ("unsupported", list (body.unsupported.map Unsupported.toListing))]

def Method.toListing (method : Method) : Listing :=
  record "Method" [
    ("name", quoted method.name),
    ("return_type", optional quoted method.returnType),
    ("parameters", varsToListing method.parameters),
    ("local_variables", varsToListing method.locals),
    ("body", method.body.toListing),
    ("raw_implementation", quoted method.implementation),
    ("line", number method.pos.line),
    ("column", number method.pos.column)]

def Property.toListing (property : Property) : Listing :=
  record "Property" [
    ("name", quoted property.name),
    ("value_type", quoted property.type),
    ("has_getter", boolean property.hasGetter),
    ("has_setter", boolean property.hasSetter),
    ("body", property.body.toListing),
    ("raw_implementation", quoted property.implementation),
    ("line", number property.pos.line),
    ("column", number property.pos.column)]

def FunctionBlock.toListing (block : FunctionBlock) : Listing :=
  record "FunctionBlock" [
    ("name", quoted block.name),
    ("extends", optional quoted block.base),
    ("implements", list (block.interfaces.map quoted)),
    ("variables", varsToListing block.vars),
    ("methods", list (block.methods.map Method.toListing)),
    ("properties", list (block.properties.map Property.toListing)),
    ("body", block.body.toListing),
    ("line", number block.pos.line),
    ("column", number block.pos.column)]

def Program.toListing (program : Program) : Listing :=
  record "Program" [
    ("name", quoted program.name),
    ("variables", varsToListing program.vars),
    ("body", program.body.toListing),
    ("line", number program.pos.line),
    ("column", number program.pos.column)]

def Function.toListing (function : Function) : Listing :=
  record "Function" [
    ("name", quoted function.name),
    ("return_type", optional quoted function.returnType),
    ("parameters", varsToListing function.parameters),
    ("local_variables", varsToListing function.locals),
    ("body", function.body.toListing),
    ("line", number function.pos.line),
    ("column", number function.pos.column)]

def Construct.toListing : Construct → Listing
  | functionBlock => atom "FunctionBlock"
  | program => atom "Program"
  | function => atom "Function"
  | method => atom "Method"
  | property => atom "Property"

def Problem.toListing : Problem → Listing
  | nestedPou => atom "NestedPou"
  | nestedMember kind => wrap "NestedMember" kind.toListing
  | memberOutsideFunctionBlock kind => wrap "MemberOutsideFunctionBlock" kind.toListing
  | unclosed kind name => record "Unclosed" [("kind", kind.toListing), ("name", quoted name)]
  | unclosedIf => atom "UnclosedIf"
  | unclosedSection keyword => wrap "UnclosedSection" (quoted keyword)
  | unterminatedComment => atom "UnterminatedComment"
  | malformedDeclaration declaration => wrap "MalformedDeclaration" (quoted declaration)
  | invalidParameter parameter => wrap "InvalidParameter" (quoted parameter)
  | sectionOutsidePou => atom "SectionOutsidePou"
  | unexpectedKeyword keyword => wrap "UnexpectedKeyword" (quoted keyword)
  | mismatchedEnd found kind name =>
    record "MismatchedEnd"
      [("found", quoted found), ("kind", kind.toListing), ("name", quoted name)]
  | elsifAfterElse => atom "ElsifAfterElse"
  | duplicateElse => atom "DuplicateElse"
  | unterminatedStatement statement => wrap "UnterminatedStatement" (quoted statement)
  | missingSemicolon => atom "MissingSemicolon"
  | missingCondition keyword => wrap "MissingCondition" (quoted keyword)

def Diagnostic.toListing (diagnostic : Diagnostic) : Listing :=
  record "ParseError" [
    ("kind", diagnostic.problem.toListing),
    ("message", quoted diagnostic.message),
    ("line", number diagnostic.line),
    ("column", optional number diagnostic.column)]

def Document.toListing (document : Document) : Listing :=
  record "ParserResult" [
    ("function_blocks", list (document.functionBlocks.map FunctionBlock.toListing)),
    ("programs", list (document.programs.map Program.toListing)),
    ("functions", list (document.functions.map Function.toListing)),
    ("errors", list (document.diagnostics.map Diagnostic.toListing))]

end StructuredText
