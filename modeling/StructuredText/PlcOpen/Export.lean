import StructuredText.Model.Document
import StructuredText.PlcOpen.Markup
import StructuredText.PlcOpen.Options
import StructuredText.Render

set_option autoImplicit false

namespace StructuredText.PlcOpen

structure Entry where
  name : String
  type : String
  returnType : Option String := none
  vars : List Variable
  body : String

namespace Entry

def ofFunctionBlock (indent : String) (block : FunctionBlock) : Entry where
  name := block.name
  type := "functionBlock"
  vars := block.vars
  body := unlines (block.lines indent)

def ofProgram (indent : String) (program : Program) : Entry where
  name := program.name
  type := "program"
  vars := program.vars
  body := renderStatements program.body.statements 0 indent

def ofFunction (indent : String) (function : Function) : Entry where
  name := function.name
  type := "function"
  returnType := function.returnType
  vars := function.parameters ++ function.locals
  body := renderStatements function.body.statements 0 indent

end Entry

def entries (document : Document) (indent : String) : List Entry :=
  document.functionBlocks.map (Entry.ofFunctionBlock indent) ++
    document.programs.map (Entry.ofProgram indent) ++
    document.functions.map (Entry.ofFunction indent)

def groupTag : Scope → String
  | .input => "inputVars"
  | .output => "outputVars"
  | .inOut => "inOutVars"
  | .var => "localVars"
  | .temp => "tempVars"

def variableLines (v : Variable) : List String :=
  ["            <variable" ++ attr "name" v.name ++ ">",
    "              " ++ textElement "type" v.type] ++
  (v.initialValue.map fun value => "              " ++ textElement "initialValue" value).toList ++
  (v.comment.map fun comment => "              " ++ textElement "documentation" comment).toList ++
  ["            </variable>"]

def groupLines (vars : List Variable) (scope : Scope) : List String :=
  let members := vars.filter fun v => v.scope = scope
  if members.isEmpty then []
  else
    ["          <" ++ groupTag scope ++ ">"] ++ members.flatMap variableLines ++
      ["          </" ++ groupTag scope ++ ">"]

def interfaceLines (entry : Entry) : List String :=
  if entry.returnType.isNone && entry.vars.isEmpty then ["        <interface/>"]
  else
    ["        <interface>"] ++
    (entry.returnType.map fun type => "          " ++ textElement "returnType" type).toList ++
    Scope.all.flatMap (groupLines entry.vars) ++
    ["        </interface>"]

def entryLines (entry : Entry) : List String :=
  ["      <pou" ++ attr "name" entry.name ++ attr "pouType" entry.type ++ ">"] ++
  interfaceLines entry ++
  ["        <body>",
    "          <ST>",
    "            <xhtml" ++ attr "xmlns" "http://www.w3.org/1999/xhtml" ++ ">" ++
      cdata entry.body ++ "</xhtml>",
    "          </ST>",
    "        </body>",
    "      </pou>"]

def headerLines (options : Options) : List String :=
  let scaling (language : String) :=
    "      <" ++ language ++ "><scaling x=\x221\x22 y=\x221\x22/></" ++ language ++ ">"
  ["<?xml version=\x221.0\x22 encoding=\x22utf-8\x22?>",
    "<project" ++ attr "xmlns" options.nameSpace ++ ">",
    "  <fileHeader" ++ attr "companyName" options.companyName ++
      attr "productName" options.productName ++
      attr "productVersion" options.productVersion ++ "/>",
    "  <contentHeader" ++ attr "name" (options.projectName.getD "project") ++ ">",
    "    <coordinateInfo>",
    scaling "fbd",
    scaling "ld",
    scaling "sfc",
    "    </coordinateInfo>",
    "  </contentHeader>",
    "  <types>",
    "    <dataTypes/>",
    "    <pous>"]

def footerLines : List String :=
  ["    </pous>",
    "  </types>",
    "  <instances>",
    "    <configurations/>",
    "  </instances>",
    "</project>"]

def toXml (document : Document) (options : Options) : String :=
  unlines
    (headerLines options ++ (entries document options.indent).flatMap entryLines ++ footerLines)

end StructuredText.PlcOpen
