import StructuredText.Model.Basic

set_option autoImplicit false

namespace StructuredText

inductive Problem where
  | nestedPou
  | nestedMember (kind : Construct)
  | memberOutsideFunctionBlock (kind : Construct)
  | unclosed (kind : Construct) (name : String)
  | unclosedIf
  | unclosedSection (keyword : String)
  | unterminatedComment
  | malformedDeclaration (text : String)
  | invalidParameter (text : String)
  | sectionOutsidePou
  | unexpectedKeyword (keyword : String)
  | mismatchedEnd (found : String) (kind : Construct) (name : String)
  | elsifAfterElse
  | duplicateElse
  | unterminatedStatement (text : String)
  | missingSemicolon
  | missingCondition (keyword : String)
  deriving DecidableEq

def Problem.message : Problem → String
  | nestedPou => "Nested POU declaration"
  | nestedMember kind => "Nested " ++ kind.description ++ " declaration"
  | memberOutsideFunctionBlock kind => kind.title ++ " declaration outside of a function block"
  | unclosed kind name => "Unclosed " ++ kind.description ++ ": " ++ name
  | unclosedIf => "Unclosed IF statement(s)"
  | unclosedSection keyword => "Unclosed " ++ keyword ++ " section"
  | unterminatedComment => "Unterminated block comment"
  | malformedDeclaration text => "Malformed variable declaration: " ++ text
  | invalidParameter text => "Invalid parameter format: " ++ text
  | sectionOutsidePou => "Variable section outside of a POU"
  | unexpectedKeyword keyword => "Unexpected " ++ keyword
  | mismatchedEnd found kind name =>
    found ++ " does not close " ++ kind.description ++ " " ++ name
  | elsifAfterElse => "ELSIF after ELSE"
  | duplicateElse => "Duplicate ELSE"
  | unterminatedStatement text => "Unterminated statement: " ++ text
  | missingSemicolon => "Missing \x27;\x27 after assignment"
  | missingCondition keyword => "Missing condition after " ++ keyword

/-- No message is stored, since the problem determines it. -/
structure Diagnostic where
  problem : Problem
  line : Nat
  column : Option Nat := none
  deriving DecidableEq

namespace Diagnostic

def message (diagnostic : Diagnostic) : String :=
  diagnostic.problem.message

def text (diagnostic : Diagnostic) : String :=
  match diagnostic.column with
  | some column =>
    diagnostic.message ++ " at " ++ toString diagnostic.line ++ ":" ++ toString column
  | none => diagnostic.message ++ " at line " ++ toString diagnostic.line

end Diagnostic

def Problem.at (problem : Problem) (pos : Position) : Diagnostic :=
  ⟨problem, pos.line, some pos.column⟩

end StructuredText
