import StructuredText.Grammar.Header
import StructuredText.Model.Document

set_option autoImplicit false

namespace StructuredText

inductive Member where
  | method (method : Method)
  | property (property : Property)

namespace Member

def construct : Member → Construct
  | method _ => .method
  | property _ => .property

def name : Member → String
  | method m => m.name
  | property p => p.name

def pos : Member → Position
  | method m => m.pos
  | property p => p.pos

def body : Member → Body
  | method m => m.body
  | property p => p.body

def setBody (body : Body) : Member → Member
  | method m => method { m with body }
  | property p => property { p with body }

def implementation : Member → String
  | method m => m.implementation
  | property p => p.implementation

def addImplementation (text : String) : Member → Member
  | method m => method { m with implementation := m.implementation ++ text }
  | property p => property { p with implementation := p.implementation ++ text }

end Member

def Property.addAccessor (property : Property) : Accessor → Property
  | .get => { property with hasGetter := true }
  | .set => { property with hasSetter := true }

namespace FunctionBlock

def addVariable (block : FunctionBlock) (v : Variable) : FunctionBlock :=
  { block with vars := block.vars ++ [v] }

def addMember (block : FunctionBlock) : Member → FunctionBlock
  | .method m => { block with methods := block.methods ++ [m] }
  | .property p => { block with properties := block.properties ++ [p] }

end FunctionBlock

inductive OpenPou where
  | functionBlock (block : FunctionBlock) (member : Option Member)
  | program (program : Program)
  | function (function : Function)

namespace OpenPou

def ofHeader (header : PouHeader) (pos : Position) : OpenPou :=
  match header.kind with
  | .functionBlock =>
    functionBlock
      { name := header.name, base := header.base, interfaces := header.interfaces, pos } none
  | .program => program { name := header.name, pos }
  | .function => function { name := header.name, returnType := header.returnType, pos }

def kind : OpenPou → PouKind
  | functionBlock .. => .functionBlock
  | program _ => .program
  | function _ => .function

def name : OpenPou → String
  | functionBlock block _ => block.name
  | program p => p.name
  | function f => f.name

def pos : OpenPou → Position
  | functionBlock block _ => block.pos
  | program p => p.pos
  | function f => f.pos

def member? : OpenPou → Option Member
  | functionBlock _ member => member
  | program _ | function _ => none

def body : OpenPou → Body
  | functionBlock block none => block.body
  | functionBlock _ (some member) => member.body
  | program p => p.body
  | function f => f.body

def setBody (body : Body) : OpenPou → OpenPou
  | functionBlock block none => functionBlock { block with body } none
  | functionBlock block (some member) => functionBlock block (some (member.setBody body))
  | program p => program { p with body }
  | function f => function { f with body }

-- Declarations inside a member belong to the function block, but a method keeps its `VAR_TEMP`
-- variables. A function keeps its parameters apart from its other variables.
def addVariable (v : Variable) : OpenPou → OpenPou
  | functionBlock block (some (.method m)) =>
    if v.scope = .temp then
      functionBlock block (some (.method { m with locals := m.locals ++ [v] }))
    else functionBlock (block.addVariable v) (some (.method m))
  | functionBlock block member => functionBlock (block.addVariable v) member
  | program p => program { p with vars := p.vars ++ [v] }
  | function f =>
    if v.scope.isParameter then
      function { f with parameters := f.parameters ++ [v] }
    else function { f with locals := f.locals ++ [v] }

def setMember (member : Option Member) : OpenPou → OpenPou
  | functionBlock block _ => functionBlock block member
  | pou => pou

def closeMember : OpenPou → OpenPou
  | functionBlock block (some member) => functionBlock (block.addMember member) none
  | pou => pou

end OpenPou

def Document.addPou (document : Document) (pou : OpenPou) : Document :=
  match pou.closeMember with
  | .functionBlock block _ => { document with functionBlocks := document.functionBlocks ++ [block] }
  | .program p => { document with programs := document.programs ++ [p] }
  | .function f => { document with functions := document.functions ++ [f] }

end StructuredText
