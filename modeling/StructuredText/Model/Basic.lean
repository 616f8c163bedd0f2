
set_option autoImplicit false

namespace StructuredText

/-- Lines and columns count from one. Columns count characters. -/
structure Position where
  line : Nat
  column : Nat
  deriving DecidableEq

inductive Scope where
  | input
  | output
  | inOut
  | var
  | temp
  deriving DecidableEq

namespace Scope

def all : List Scope :=
  [input, output, inOut, var, temp]

def keyword : Scope → String
  | input => "VAR_INPUT"
  | output => "VAR_OUTPUT"
  | inOut => "VAR_IN_OUT"
  | var => "VAR"
  | temp => "VAR_TEMP"

def ofKeyword? (text : String) : Option Scope :=
  all.find? fun scope => scope.keyword == text

def isParameter : Scope → Bool
  | input | output | inOut => true
  | var | temp => false

theorem ofKeyword?_eq_some {text : String} {scope : Scope} (h : ofKeyword? text = some scope) :
    scope.keyword = text := by
  simpa using List.find?_some h

end Scope

structure Variable where
  name : String
  type : String
  scope : Scope
  initialValue : Option String
  comment : Option String
  line : Nat
  deriving DecidableEq

mutual

inductive Statement where
  | assignment (target expression : String) (line : Nat)
  | conditional (node : Conditional)

structure ElsifBranch where
  condition : String
  statements : List Statement
  line : Nat

structure Conditional where
  condition : String
  thenBranch : List Statement
  elsifBranches : List ElsifBranch
  elseBranch : Option (List Statement)
  line : Nat

end

namespace Statement

def line : Statement → Nat
  | assignment _ _ line => line
  | conditional node => node.line

end Statement

structure Unsupported where
  text : String
  line : Nat
  deriving DecidableEq

structure Body where
  statements : List Statement := []
  unsupported : List Unsupported := []

namespace Body

def isEmpty (body : Body) : Bool :=
  body.statements.isEmpty && body.unsupported.isEmpty

end Body

structure Method where
  name : String
  returnType : Option String
  parameters : List Variable
  -- The `VAR_TEMP` variables. Those of other sections belong to the function block.
  locals : List Variable := []
  body : Body := {}
  -- The source lines that hold unsupported code.
  implementation : String := ""
  pos : Position

structure Property where
  name : String
  type : String
  hasGetter : Bool := false
  hasSetter : Bool := false
  body : Body := {}
  implementation : String := ""
  pos : Position

structure FunctionBlock where
  name : String
  base : Option String
  interfaces : List String
  vars : List Variable := []
  methods : List Method := []
  properties : List Property := []
  body : Body := {}
  pos : Position

structure Program where
  name : String
  vars : List Variable := []
  body : Body := {}
  pos : Position

structure Function where
  name : String
  returnType : Option String
  parameters : List Variable := []
  locals : List Variable := []
  body : Body := {}
  pos : Position

inductive PouKind where
  | functionBlock
  | program
  | function
  deriving DecidableEq

namespace PouKind

def keyword : PouKind → String
  | functionBlock => "FUNCTION_BLOCK"
  | program => "PROGRAM"
  | function => "FUNCTION"

def closingKeyword : PouKind → String
  | functionBlock => "END_FUNCTION_BLOCK"
  | program => "END_PROGRAM"
  | function => "END_FUNCTION"

end PouKind

inductive Construct where
  | functionBlock
  | program
  | function
  | method
  | property
  deriving DecidableEq

namespace Construct

def description : Construct → String
  | functionBlock => "function block"
  | program => "program"
  | function => "function"
  | method => "method"
  | property => "property"

def title : Construct → String
  | functionBlock => "Function block"
  | program => "Program"
  | function => "Function"
  | method => "Method"
  | property => "Property"

end Construct

def PouKind.construct : PouKind → Construct
  | functionBlock => .functionBlock
  | program => .program
  | function => .function

end StructuredText
