import StructuredText.Diagnostic

set_option autoImplicit false

namespace StructuredText

structure Document where
  functionBlocks : List FunctionBlock := []
  programs : List Program := []
  functions : List Function := []
  diagnostics : List Diagnostic := []

namespace Document

def isOk (document : Document) : Bool :=
  document.diagnostics.isEmpty

def pouCount (document : Document) : Nat :=
  document.functionBlocks.length + document.programs.length + document.functions.length

def report (document : Document) (diagnostics : List Diagnostic) : Document :=
  { document with diagnostics := document.diagnostics ++ diagnostics }

end Document

end StructuredText
