import StructuredText.Grammar.TypeExpr
import StructuredText.Keyword
import StructuredText.Model.Basic

set_option autoImplicit false

namespace StructuredText

open Reader

def blockModifiers : List String :=
  ["ABSTRACT", "FINAL", "PUBLIC", "INTERNAL"]

def memberModifiers : List String :=
  ["PUBLIC", "PRIVATE", "PROTECTED", "INTERNAL", "ABSTRACT", "FINAL", "OVERRIDE"]

-- Reads behind as many modifiers as possible. The last modifier is itself the name where nothing
-- can be read behind it.
def afterModifiers {α : Type} (modifiers : List String) (read : List Char → Option α)
    (s : List Char) : Option α :=
  match _h : wordAmong modifiers s with
  | some rest => (afterModifiers modifiers read rest).or (read s)
  | none => read s
termination_by s.length
decreasing_by exact wordAmong_length _h

def isTerminator (s : List Char) : Bool :=
  trimStart s == [] || trimStart s == [';']

-- An optional `: TYPE`. A colon without a type is no clause at all.
def typeClause? (s : List Char) : Option (Option String × List Char) :=
  match trimStart s with
  | ':' :: rest => (TypeExpr.read? (trimStart rest)).map fun (type, rest) => (some type, rest)
  | _ => some (none, s)

structure PouHeader where
  kind : PouKind
  name : String
  returnType : Option String := none
  base : Option String := none
  interfaces : List String := []
  deriving DecidableEq

namespace PouHeader

def baseClause (s : List Char) : Option String × List Char :=
  let clause := do
    let rest ← blanks s
    let rest ← literal "EXTENDS" rest
    let rest ← blanks rest
    let isPart := fun c => isNameChar c || c == '.'
    if isQualifiedName (rest.takeWhile isPart) then
      some (rest.takeWhile isPart, rest.dropWhile isPart)
    else none
  match clause with
  | some (base, rest) => (some (String.ofList base), rest)
  | none => (none, s)

def interfaceClause? (s : List Char) : Option (List String) :=
  if s = [] then some []
  else do
    let rest ← blanks s
    let rest ← literal "IMPLEMENTS" rest
    let rest ← blanks rest
    let names := (splitWhere (· == ',') rest).map trim
    if trimEnd rest == rest && names.all isQualifiedName then some (names.map String.ofList)
    else none

def functionBlock? (s : List Char) : Option PouHeader := do
  let rest ← literal "FUNCTION_BLOCK" s
  let rest ← blanks rest
  afterModifiers blockModifiers named rest
where
  named (s : List Char) : Option PouHeader := do
    let rest ← Reader.name s
    let (base, clauses) := baseClause rest
    let interfaces ← interfaceClause? clauses
    some { kind := .functionBlock, name := String.ofList (consumed s rest), base, interfaces }

def program? (s : List Char) : Option PouHeader := do
  let rest ← literal "PROGRAM" s
  let name ← blanks rest
  if isName name then some { kind := .program, name := String.ofList name } else none

def function? (s : List Char) : Option PouHeader := do
  let rest ← literal "FUNCTION" s
  let s ← blanks rest
  let rest ← Reader.name s
  let (returnType, after) ← typeClause? rest
  if after = [] then
    some { kind := .function, name := String.ofList (consumed s rest), returnType }
  else none

def read? (s : List Char) : Option PouHeader :=
  (functionBlock? s).or ((program? s).or (function? s))

end PouHeader

structure MethodHeader where
  name : String
  -- The trimmed text between the parentheses.
  parameters : Option (List Char)
  returnType : Option String
  deriving DecidableEq

namespace MethodHeader

-- The text up to the parenthesis that closes an open one. Parentheses may be nested once.
def parenthesized? (nested : Bool) : List Char → Option (List Char × List Char)
  | [] => none
  | c :: rest =>
    let keep (inside : Bool) :=
      (parenthesized? inside rest).map fun (inner, after) => (c :: inner, after)
    if c = ')' then if nested then keep false else some ([], rest)
    else if c = '(' then if nested then none else keep true
    else keep nested

def parameterText (s : List Char) : Option (List Char) × List Char :=
  match trimStart s with
  | '(' :: rest =>
    match parenthesized? false rest with
    | some (inner, after) => (some (trim inner), after)
    | none => (none, s)
  | _ => (none, s)

def read? (s : List Char) : Option MethodHeader := do
  let rest ← literal "METHOD" s
  let rest ← blanks rest
  afterModifiers memberModifiers named rest
where
  named (s : List Char) : Option MethodHeader := do
    let rest ← Reader.name s
    let (parameters, clauses) := parameterText rest
    let (returnType, after) ← typeClause? clauses
    if isTerminator after then
      some { name := String.ofList (consumed s rest), parameters, returnType }
    else none

end MethodHeader

structure PropertyHeader where
  name : String
  type : String
  deriving DecidableEq

namespace PropertyHeader

def read? (s : List Char) : Option PropertyHeader := do
  let rest ← literal "PROPERTY" s
  let rest ← blanks rest
  afterModifiers memberModifiers named rest
where
  named (s : List Char) : Option PropertyHeader := do
    let rest ← Reader.name s
    let (type, after) ← typeClause? rest
    let type ← type
    if isTerminator after then some { name := String.ofList (consumed s rest), type } else none

end PropertyHeader

inductive SectionHeader where
  | scope (scope : Scope)
  | other (keyword : String)
  deriving DecidableEq

namespace SectionHeader

def keyword : SectionHeader → String
  | scope s => s.keyword
  | other keyword => keyword

def scope? : SectionHeader → Option Scope
  | scope s => some s
  | other _ => none

def ofKeyword (keyword : String) : SectionHeader :=
  match Scope.ofKeyword? keyword with
  | some s => scope s
  | none => other keyword

def suffixes : List String :=
  ["INPUT", "OUTPUT", "IN_OUT", "TEMP", "GLOBAL", "EXTERNAL", "STAT", "INST", "CONFIG", "ACCESS"]

def keywords : List String :=
  "VAR" :: suffixes.map ("VAR_" ++ ·)

def qualifiers : List String :=
  ["CONSTANT", "RETAIN", "PERSISTENT", "NON_RETAIN"]

def read? (s : List Char) : Option SectionHeader :=
  match (words s).map String.ofList with
  | [] => none
  | keyword :: rest =>
    if trim s == s && keywords.contains keyword && rest.all qualifiers.contains then
      some (ofKeyword keyword)
    else none

theorem keywords_eq : keywords = sectionKeywords := by
  decide

theorem qualifiers_eq : qualifiers = sectionQualifiers := rfl

theorem read?_eq (s : List Char) :
    read? s =
      match (words s).map String.ofList with
      | [] => none
      | keyword :: rest =>
        if trim s == s && sectionKeywords.contains keyword &&
            rest.all sectionQualifiers.contains then
          some (ofKeyword keyword)
        else none := by
  rw [read?, keywords_eq, qualifiers_eq]

end SectionHeader

inductive ClosingWord where
  | pou (kind : PouKind)
  | method
  | property
  | var
  | get
  | set
  deriving DecidableEq

namespace ClosingWord

def all : List ClosingWord :=
  [pou .functionBlock, pou .program, pou .function, method, property, var, get, set]

def keyword : ClosingWord → String
  | pou kind => kind.closingKeyword
  | method => "END_METHOD"
  | property => "END_PROPERTY"
  | var => "END_VAR"
  | get => "END_GET"
  | set => "END_SET"

def read? (s : List Char) : Option ClosingWord :=
  all.find? fun word => word.keyword.toList == withoutTerminator s

end ClosingWord

inductive Accessor where
  | get
  | set
  deriving DecidableEq

namespace Accessor

def keyword : Accessor → String
  | get => "GET"
  | set => "SET"

def read? (s : List Char) : Option Accessor :=
  let word := trimEnd (s.reverse.dropWhile (· == ';')).reverse
  [get, set].find? fun accessor => accessor.keyword.toList == word

end Accessor

end StructuredText
