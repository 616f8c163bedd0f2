import StructuredText.Comment
import StructuredText.Document.OpenPou
import StructuredText.Fragment
import StructuredText.Grammar.Declaration
import StructuredText.Grammar.Pragma
import StructuredText.StatementTree

set_option autoImplicit false

namespace StructuredText

inductive Boundary where
  | closing (word : ClosingWord)
  | pou (header : PouHeader)
  | method (header : MethodHeader)
  | property (header : PropertyHeader)
  | varSection (header : SectionHeader)
  deriving DecidableEq

def Boundary.read? (text : List Char) : Option Boundary :=
  ((ClosingWord.read? text).map closing).or <|
    ((PouHeader.read? text).map pou).or <|
      ((MethodHeader.read? text).map method).or <|
        ((PropertyHeader.read? text).map property).or <|
          (SectionHeader.read? text).map varSection

def MethodHeader.inputs (header : MethodHeader) (line : Nat) : List Variable :=
  (Parameter.readList (header.parameters.getD [])).filterMap fun entry =>
    match entry with
    | .ok parameter =>
      some { name := parameter.name, type := parameter.type, scope := .input,
             initialValue := parameter.initialValue, comment := none, line }
    | .error _ => none

def MethodHeader.invalidParameters (header : MethodHeader) (pos : Position) : List Diagnostic :=
  (Parameter.readList (header.parameters.getD [])).filterMap fun entry =>
    match entry with
    | .ok _ => none
    | .error text => some ((Problem.invalidParameter text).at pos)

structure OpenSection where
  header : SectionHeader
  pos : Position
  deriving DecidableEq

def OpenSection.unclosed (opened : OpenSection) : Diagnostic :=
  (Problem.unclosedSection opened.header.keyword).at opened.pos

structure Scopes where
  pou : OpenPou
  varSection : Option OpenSection := none
  builder : Builder := {}
  -- The last line copied into the implementation of the open member.
  copiedLine : Option Nat := none

namespace Scopes

def unfinished (scopes : Scopes) : List Diagnostic :=
  (scopes.varSection.map OpenSection.unclosed).toList ++ scopes.builder.close

def unclosed (scopes : Scopes) : List Diagnostic :=
  scopes.unfinished ++
    (scopes.pou.member?.map fun member =>
      (Problem.unclosed member.construct member.name).at member.pos).toList

end Scopes

structure State where
  -- The POUs that are closed, and all diagnostics so far.
  document : Document := {}
  current : Option Scopes := none

structure SourceLine where
  raw : List Char
  stripped : StrippedLine
  number : Nat

def SourceLine.position (line : SourceLine) (offset : Nat) : Position :=
  ⟨line.number, (charsBefore? line.raw offset).getD offset + 1⟩

namespace State

def report (state : State) (diagnostics : List Diagnostic) : State :=
  { state with document := state.document.report diagnostics }

def setScopes (state : State) (scopes : Scopes) : State :=
  { state with current := some scopes }

def dropPending (state : State) : State :=
  match state.current with
  | none => state
  | some scopes =>
    let (builder, diagnostics) := scopes.builder.dropPending
    (state.setScopes { scopes with builder }).report diagnostics

def closePou (state : State) : State :=
  match state.current with
  | none => state
  | some scopes =>
    { document := (state.document.addPou scopes.pou).report scopes.unclosed, current := none }

def closing (state : State) (word : ClosingWord) : State × Option Problem :=
  let unexpected := (state, some (Problem.unexpectedKeyword word.keyword))
  match state.current with
  | none => unexpected
  | some scopes =>
    let closeMember (expected : Construct) :=
      match scopes.pou.member? with
      | none => unexpected
      | some member =>
        if member.construct = expected then
          ((state.setScopes { pou := scopes.pou.closeMember }).report scopes.unfinished, none)
        else (state, some (.mismatchedEnd word.keyword member.construct member.name))
    match word with
    | .var =>
      if scopes.varSection.isSome then (state.setScopes { scopes with varSection := none }, none)
      else unexpected
    | .get | .set =>
      if scopes.pou.member?.any (·.construct = .property) then (state, none) else unexpected
    | .method => closeMember .method
    | .property => closeMember .property
    | .pou kind =>
      if scopes.pou.kind = kind then (state.closePou, none)
      else (state, some (.mismatchedEnd word.keyword scopes.pou.kind.construct scopes.pou.name))

def openPou (state : State) (header : PouHeader) (pos : Position) : State × Option Problem :=
  match state.current with
  | some _ => (state, some .nestedPou)
  | none => (state.setScopes { pou := .ofHeader header pos }, none)

-- Opens a member of the open function block. The section and statements that are still open in the
-- block end here.
def openMember (state : State) (member : Member) (problems : List Diagnostic) :
    State × Option Problem :=
  match state.current with
  | some scopes =>
    match scopes.pou with
    | .functionBlock block none =>
      let state := state.report (scopes.unfinished ++ problems)
      (state.setScopes { pou := .functionBlock block (some member) }, none)
    | .functionBlock _ (some _) => (state, some (.nestedMember member.construct))
    | _ => (state, some (.memberOutsideFunctionBlock member.construct))
  | none => (state, some (.memberOutsideFunctionBlock member.construct))

def openMethod (state : State) (header : MethodHeader) (pos : Position) : State × Option Problem :=
  let parameters := header.inputs pos.line
  state.openMember
    (.method { name := header.name, returnType := header.returnType, parameters, pos })
    (header.invalidParameters pos)

def openProperty (state : State) (header : PropertyHeader) (pos : Position) :
    State × Option Problem :=
  state.openMember (.property { name := header.name, type := header.type, pos }) []

def openSection (state : State) (header : SectionHeader) (pos : Position) :
    State × Option Problem :=
  match state.current with
  | none => (state, some .sectionOutsidePou)
  | some scopes =>
    let state := state.report (scopes.varSection.map OpenSection.unclosed).toList
    (state.setScopes { scopes with varSection := some ⟨header, pos⟩ }, none)

def boundary (state : State) (pos : Position) : Boundary → State × Option Problem
  | .closing word => state.closing word
  | .pou header => state.openPou header pos
  | .method header => state.openMethod header pos
  | .property header => state.openProperty header pos
  | .varSection header => state.openSection header pos

def declare (state : State) (scopes : Scopes) (header : SectionHeader) (text : List Char)
    (line : Nat) (comment : Option String) : State × Option Problem :=
  match header.scope? with
  | none => (state, none)
  | some scope =>
    match Declaration.read? text with
    | none => (state, some (.malformedDeclaration (String.ofList text)))
    | some declaration =>
      let add (pou : OpenPou) (name : String) : OpenPou :=
        pou.addVariable { name, type := declaration.type, scope,
                          initialValue := declaration.initialValue, comment, line }
      let pou := declaration.names.foldl add scopes.pou
      (state.setScopes { scopes with pou }, none)

-- Records code that the statement tree does not hold. A member also keeps the line it stands on,
-- once for each line.
def recordUnsupported (scopes : Scopes) (text : List Char) (line : SourceLine) : Scopes :=
  let body := scopes.pou.body
  let entry := ⟨String.ofList text, line.number⟩
  let pou := scopes.pou.setBody { body with unsupported := body.unsupported ++ [entry] }
  match pou.member? with
  | none => { scopes with pou }
  | some member =>
    if scopes.copiedLine = some line.number then { scopes with pou }
    else
      let copied := String.ofList (trim line.raw) ++ "\n"
      { scopes with
        pou := pou.setMember (some (member.addImplementation copied))
        copiedLine := some line.number }

def statement (state : State) (scopes : Scopes) (text : List Char) (pos : Position)
    (line : SourceLine) : State × Option Problem :=
  let body := scopes.pou.body
  let outcome := scopes.builder.feed body.statements text pos
  let pou := scopes.pou.setBody { body with statements := outcome.root }
  let scopes := { scopes with pou, builder := outcome.builder }
  let state := state.report outcome.reported
  match outcome.result with
  | .error problem => (state.setScopes scopes, some problem)
  | .ok (.unsupported text) => (state.setScopes (recordUnsupported scopes text line), none)
  | .ok _ => (state.setScopes scopes, none)

-- Text that is no boundary: a declaration in a section, an accessor of a property, or a statement.
-- Outside all POUs it means nothing.
def content (state : State) (text : List Char) (pos : Position) (line : SourceLine)
    (comment : Option String) : State × Option Problem :=
  match state.current with
  | none => (state, none)
  | some scopes =>
    match scopes.varSection, scopes.pou, Accessor.read? text with
    | some varSection, _, _ =>
      state.declare scopes varSection.header text line.number comment
    | none, .functionBlock block (some (.property property)), some accessor =>
      let member := .property (property.addAccessor accessor)
      (state.setScopes { scopes with pou := .functionBlock block (some member) }, none)
    | none, _, _ => state.statement scopes text pos line

-- Reads a fragment. `stop` is where the next fragment of the line starts.
def fragment (state : State) (line : SourceLine) (fragment : Fragment) (stop : Option Nat) :
    State × Option Problem :=
  let text := withoutPragmas fragment.text
  if text = [] then (state, none)
  else
    let pos := line.position (fragment.stop - width text)
    match Boundary.read? text with
    | some boundary => state.dropPending.boundary pos boundary
    | none => state.content text pos line (line.stripped.commentBetween fragment.stop stop)

-- Reads fragments in order. A problem is placed at the start of its fragment.
def fragments (state : State) (line : SourceLine) : List Fragment → State
  | [] => state
  | f :: rest =>
    let (state, problem) := state.fragment line f (rest.head?.map Fragment.start)
    let diagnostics := problem.map fun problem => problem.at (line.position f.start)
    (state.report diagnostics.toList).fragments line rest

def line (state : State) (line : SourceLine) : State :=
  state.fragments line (StructuredText.fragments line.stripped.code)

def finish (state : State) : Document :=
  match state.current with
  | none => state.document
  | some scopes =>
    state.closePou.document.report
      [(Problem.unclosed scopes.pou.kind.construct scopes.pou.name).at scopes.pou.pos]

end State

end StructuredText
