import StructuredText.Proofs.Consistency
import StructuredText.Proofs.TreeNumbers

set_option autoImplicit false

namespace StructuredText

inductive Mark where
  | line (number : Nat)
  | place (pos : Position)
  | header (keyword : String) (pos : Position)
  deriving DecidableEq

def Position.marks (pos : Position) : List Mark :=
  [.place pos, .line pos.line]

def headerMarks (keyword : String) (pos : Position) : List Mark :=
  .header keyword pos :: pos.marks

def Diagnostic.marks (diagnostic : Diagnostic) : List Mark :=
  match diagnostic.column with
  | some column => Position.marks ⟨diagnostic.line, column⟩
  | none => [.line diagnostic.line]

def Variable.mark (v : Variable) : Mark :=
  .line v.line

def Body.marks (body : Body) : List Mark :=
  (lineNumbers body.statements).map .line ++ body.unsupported.map fun entry => .line entry.line

def Method.marks (method : Method) : List Mark :=
  headerMarks "METHOD" method.pos ++ method.parameters.map Variable.mark ++
    method.locals.map Variable.mark ++ method.body.marks

def Property.marks (property : Property) : List Mark :=
  headerMarks "PROPERTY" property.pos ++ property.body.marks

def FunctionBlock.marks (block : FunctionBlock) : List Mark :=
  headerMarks PouKind.functionBlock.keyword block.pos ++ block.vars.map Variable.mark ++
    block.methods.flatMap Method.marks ++ block.properties.flatMap Property.marks ++
    block.body.marks

def Program.marks (program : Program) : List Mark :=
  headerMarks PouKind.program.keyword program.pos ++ program.vars.map Variable.mark ++
    program.body.marks

def Function.marks (function : Function) : List Mark :=
  headerMarks PouKind.function.keyword function.pos ++ function.parameters.map Variable.mark ++
    function.locals.map Variable.mark ++ function.body.marks

def Document.marks (document : Document) : List Mark :=
  document.functionBlocks.flatMap FunctionBlock.marks ++ document.programs.flatMap Program.marks ++
    document.functions.flatMap Function.marks ++ document.diagnostics.flatMap Diagnostic.marks

def Member.marks : Member → List Mark
  | method m => m.marks
  | property p => p.marks

def OpenPou.marks : OpenPou → List Mark
  | functionBlock block member => block.marks ++ (member.map Member.marks).getD []
  | program p => p.marks
  | function f => f.marks

def Boundary.headerKeyword? : Boundary → Option String
  | pou header => some header.kind.keyword
  | method _ => some "METHOD"
  | property _ => some "PROPERTY"
  | closing _ | varSection _ => none

def Step.marks (step : Step) : List Mark :=
  .line step.line.number :: step.start.marks ++
    (if step.text = [] then [] else step.pos.marks) ++
    ((step.boundary?.bind Boundary.headerKeyword?).map fun keyword =>
      .header keyword step.pos).toList

namespace Builder

variable {known : Position → Prop}

def Placed (known : Position → Prop) (builder : Builder) : Prop :=
  (∀ frame ∈ builder.frames, known frame.pos) ∧ ∀ pending ∈ builder.pending, known pending.pos

section Placed

variable {builder : Builder} {pos : Position} (placed : builder.Placed known) (here : known pos)
  (root : List Statement)

include placed

theorem append_placed (statement : Statement) :
    (builder.append statement root).1.Placed known := by
  refine ⟨?_, by rw [append_pending]; exact placed.2⟩
  simp only [append]
  split
  · exact placed.1
  · simp

theorem openBranch_placed {keyword : String} {afterElse : Problem}
    {change : Conditional → Conditional × Branch} {missing : Option Problem} :
    (builder.openBranch root keyword afterElse change missing).1.Placed known := by
  unfold openBranch
  split
  · exact placed
  · rename_i top isTop
    split
    · exact placed
    · split
      · exact placed
      · refine ⟨?_, placed.2⟩
        obtain ⟨outer, shape⟩ := List.getLast?_eq_some_iff.mp isTop
        simpa [setBranch, shape, or_imp, forall_and] using placed.1

include here

theorem conditional_placed (word : ConditionalWord) :
    (builder.conditional root pos word).1.Placed known := by
  cases word with
  | ifThen condition =>
    obtain ⟨frames, pending⟩ := append_placed placed root
      (.conditional ⟨condition, [], [], none, pos.line⟩)
    refine ⟨?_, pending⟩
    simpa [conditional, or_imp, forall_and] using ⟨frames, here⟩
  | elsif condition => exact openBranch_placed placed root
  | otherwise => exact openBranch_placed placed root
  | endIf =>
    simp only [conditional]
    split
    · exact placed
    · exact ⟨fun frame member => placed.1 frame (List.dropLast_subset _ member), placed.2⟩

theorem build_placed (text : List Char) (continued : Bool) :
    (builder.build root text pos continued).builder.Placed known := by
  have waits : { builder with pending := some ⟨text, pos⟩ }.Placed known :=
    ⟨placed.1, by simpa using here⟩
  simp only [build, assign]
  split
  · exact placed
  · exact placed
  · split
    · rename_i word _
      split
      · exact placed
      · have kept := conditional_placed placed here root word
        split
        · rename_i taken
          rwa [taken] at kept
        · rename_i taken
          rwa [taken] at kept
    · split
      · exact waits
      · exact append_placed placed root _
    · split
      · split
        · exact placed
        · exact waits
      · split
        · exact placed
        · exact placed

theorem offered_placed (text : List Char) : known (builder.offered text pos).2.1 := by
  simp only [offered]
  split
  · exact here
  · rename_i pending isPending
    split
    · exact here
    · exact placed.2 pending isPending

theorem feed_placed (text : List Char) : (builder.feed root text pos).builder.Placed known := by
  rw [(builder.feed_eq_takeOffered root text pos).1, takeOffered]
  have idle : { builder with pending := none }.Placed known := ⟨placed.1, by simp⟩
  exact build_placed idle (offered_placed placed here text) root _ _

end Placed

theorem feed_reported {builder : Builder} {root : List Statement} {text : List Char}
    {pos : Position} {diagnostic : Diagnostic}
    (member : diagnostic ∈ (builder.feed root text pos).reported) :
    ∃ problem pending, builder.pending = some pending ∧
      diagnostic = Problem.at problem pending.pos := by
  unfold feed at member
  split at member
  · rw [build_reported] at member
    cases member
  · rename_i pending isPending
    split at member
    · exact ⟨_, pending, isPending, List.mem_singleton.mp member⟩
    · simp only at member
      split at member
      · rw [build_reported] at member
        cases member
      · exact ⟨_, pending, isPending, List.mem_singleton.mp member⟩

end Builder

@[simp] theorem Problem.marks_at (problem : Problem) (pos : Position) :
    (problem.at pos).marks = pos.marks := rfl

section Marked

variable {known : List Mark}

namespace OpenPou

theorem marks_closeMember (pou : OpenPou) (marked : pou.marks ⊆ known) :
    pou.closeMember.marks ⊆ known := by
  cases pou with
  | functionBlock block member =>
    rcases member with _ | (method | property)
    · exact marked
    · simp_all [closeMember, marks, FunctionBlock.marks, FunctionBlock.addMember, Member.marks]
    · simp_all [closeMember, marks, FunctionBlock.marks, FunctionBlock.addMember, Member.marks]
  | program p => exact marked
  | function f => exact marked

theorem marks_addVariable (pou : OpenPou) (v : Variable) (marked : pou.marks ⊆ known)
    (here : v.mark ∈ known) : (pou.addVariable v).marks ⊆ known := by
  cases pou with
  | functionBlock block member =>
    rcases member with _ | (method | property)
    · simp_all [addVariable, marks, FunctionBlock.marks, FunctionBlock.addVariable]
    · simp only [addVariable]
      split
      · simp_all [marks, Member.marks, Method.marks]
      · simp_all [marks, FunctionBlock.marks, FunctionBlock.addVariable]
    · simp_all [addVariable, marks, FunctionBlock.marks, FunctionBlock.addVariable]
  | program p => simp_all [addVariable, marks, Program.marks]
  | function f =>
    simp only [addVariable]
    split <;> simp_all [marks, Function.marks]

theorem marks_body (pou : OpenPou) (marked : pou.marks ⊆ known) : pou.body.marks ⊆ known := by
  cases pou with
  | functionBlock block member =>
    rcases member with _ | (method | property)
    · simp_all [body, marks, FunctionBlock.marks]
    · simp_all [body, marks, Member.marks, Member.body, Method.marks]
    · simp_all [body, marks, Member.marks, Member.body, Property.marks]
  | program p => simp_all [body, marks, Program.marks]
  | function f => simp_all [body, marks, Function.marks]

theorem marks_setBody (pou : OpenPou) {body : Body} (marked : pou.marks ⊆ known)
    (inside : body.marks ⊆ known) : (pou.setBody body).marks ⊆ known := by
  cases pou with
  | functionBlock block member =>
    rcases member with _ | (method | property)
    · simp_all [setBody, marks, FunctionBlock.marks]
    · simp_all [setBody, marks, Member.marks, Member.setBody, Method.marks]
    · simp_all [setBody, marks, Member.marks, Member.setBody, Property.marks]
  | program p => simp_all [setBody, marks, Program.marks]
  | function f => simp_all [setBody, marks, Function.marks]

theorem marks_setMember {pou : OpenPou} {member : Member} (isOpen : pou.member? = some member)
    (text : String) :
    (pou.setMember (some (member.addImplementation text))).marks = pou.marks := by
  cases pou with
  | functionBlock block inner =>
    obtain rfl : inner = some member := isOpen
    cases member <;> rfl
  | program p => cases isOpen
  | function f => cases isOpen

theorem marks_ofHeader {header : PouHeader} {pos : Position}
    (here : headerMarks header.kind.keyword pos ⊆ known) : (ofHeader header pos).marks ⊆ known := by
  simp only [ofHeader]
  cases kind : header.kind <;>
    simpa [marks, FunctionBlock.marks, Program.marks, Function.marks, Body.marks, lineNumbers, kind]
      using here

theorem marks_pos (pou : OpenPou) (marked : pou.marks ⊆ known) : pou.pos.marks ⊆ known := by
  cases pou with
  | functionBlock block member => simp_all [marks, FunctionBlock.marks, headerMarks, pos]
  | program p => simp_all [marks, Program.marks, headerMarks, pos]
  | function f => simp_all [marks, Function.marks, headerMarks, pos]

theorem marks_member_pos {pou : OpenPou} {member : Member} (isOpen : pou.member? = some member)
    (marked : pou.marks ⊆ known) : member.pos.marks ⊆ known := by
  cases pou with
  | functionBlock block inner =>
    obtain rfl : inner = some member := isOpen
    cases member with
    | method m => simp_all [marks, Member.marks, Method.marks, headerMarks, Member.pos]
    | property p => simp_all [marks, Member.marks, Property.marks, headerMarks, Member.pos]
  | program p => cases isOpen
  | function f => cases isOpen

end OpenPou

theorem Document.marks_report {document : Document} {diagnostics : List Diagnostic} :
    (document.report diagnostics).marks ⊆ known ↔
      document.marks ⊆ known ∧ diagnostics.flatMap Diagnostic.marks ⊆ known := by
  simp [Document.marks, Document.report, and_assoc]

theorem Document.marks_addPou {document : Document} {pou : OpenPou}
    (marked : document.marks ⊆ known) (inside : pou.marks ⊆ known) :
    (document.addPou pou).marks ⊆ known := by
  have closed := pou.marks_closeMember inside
  simp only [Document.addPou]
  split
  all_goals
    rename_i isPou
    simp_all [Document.marks, OpenPou.marks]

structure Scopes.Marked (known : List Mark) (scopes : Scopes) : Prop where
  pou : scopes.pou.marks ⊆ known
  varSection : ∀ opened ∈ scopes.varSection, opened.pos.marks ⊆ known
  builder : scopes.builder.Placed fun pos => pos.marks ⊆ known

structure State.Marked (known : List Mark) (state : State) : Prop where
  document : state.document.marks ⊆ known
  current : ∀ scopes ∈ state.current, scopes.Marked known

namespace Builder

theorem marks_dropPending {builder : Builder}
    (placed : builder.Placed fun pos => pos.marks ⊆ known) :
    builder.dropPending.2.flatMap Diagnostic.marks ⊆ known := by
  cases isPending : builder.pending with
  | none => simp [dropPending, isPending]
  | some pending =>
    simpa [dropPending, isPending, Pending.unterminated] using placed.2 pending isPending

theorem marks_close {builder : Builder}
    (placed : builder.Placed fun pos => pos.marks ⊆ known) :
    builder.close.flatMap Diagnostic.marks ⊆ known := by
  rw [close, List.flatMap_append, List.append_subset]
  refine ⟨marks_dropPending placed, ?_⟩
  cases first : builder.frames.head? with
  | none => simp
  | some frame => simpa using placed.1 frame (List.mem_of_head? first)

end Builder

namespace Scopes.Marked

theorem of_pou {pou : OpenPou} (inside : pou.marks ⊆ known) :
    Scopes.Marked known { pou } :=
  ⟨inside, by simp, by simp [Builder.Placed]⟩

variable {scopes : Scopes} (marked : scopes.Marked known)

include marked

theorem section_unclosed :
    ((scopes.varSection.map OpenSection.unclosed).toList).flatMap Diagnostic.marks ⊆ known := by
  cases isOpen : scopes.varSection with
  | none => simp
  | some opened => simpa [OpenSection.unclosed] using marked.varSection opened isOpen

theorem unfinished : scopes.unfinished.flatMap Diagnostic.marks ⊆ known := by
  rw [Scopes.unfinished, List.flatMap_append, List.append_subset]
  exact ⟨marked.section_unclosed, Builder.marks_close marked.builder⟩

theorem unclosed : scopes.unclosed.flatMap Diagnostic.marks ⊆ known := by
  rw [Scopes.unclosed, List.flatMap_append, List.append_subset]
  refine ⟨marked.unfinished, ?_⟩
  cases isOpen : scopes.pou.member? with
  | none => simp
  | some member => simpa using OpenPou.marks_member_pos isOpen marked.pou

theorem recordUnsupported {text : List Char} {line : SourceLine}
    (here : Mark.line line.number ∈ known) :
    (State.recordUnsupported scopes text line).Marked known := by
  have inside := scopes.pou.marks_body marked.pou
  let entry : Unsupported := ⟨String.ofList text, line.number⟩
  let body := { scopes.pou.body with unsupported := scopes.pou.body.unsupported ++ [entry] }
  have recorded : (scopes.pou.setBody body).marks ⊆ known :=
    scopes.pou.marks_setBody marked.pou (by simp_all [body, entry, Body.marks])
  simp only [State.recordUnsupported]
  split
  · exact ⟨recorded, marked.varSection, marked.builder⟩
  · rename_i member isOpen
    split
    · exact ⟨recorded, marked.varSection, marked.builder⟩
    · refine ⟨?_, marked.varSection, marked.builder⟩
      rw [OpenPou.marks_setMember isOpen]
      exact recorded

end Scopes.Marked

namespace State.Marked

variable {state : State} (marked : state.Marked known)

include marked

theorem report {diagnostics : List Diagnostic}
    (inside : diagnostics.flatMap Diagnostic.marks ⊆ known) :
    (state.report diagnostics).Marked known :=
  ⟨Document.marks_report.mpr ⟨marked.document, inside⟩, marked.current⟩

theorem setScopes {scopes : Scopes} (inside : scopes.Marked known) :
    (state.setScopes scopes).Marked known :=
  ⟨marked.document, by simpa [State.setScopes] using inside⟩

theorem dropPending : state.dropPending.Marked known := by
  cases current : state.current with
  | none => simpa [State.dropPending, current] using marked
  | some scopes =>
    have inside := marked.current scopes current
    rw [State.dropPending_of_open current]
    refine (marked.setScopes ?_).report (Builder.marks_dropPending inside.builder)
    exact ⟨inside.pou, inside.varSection, inside.builder.1, by simp [Builder.dropPending]⟩

theorem closePou : state.closePou.Marked known := by
  cases current : state.current with
  | none => simpa [State.closePou, current] using marked
  | some scopes =>
    have inside := marked.current scopes current
    simp only [State.closePou, current]
    refine ⟨Document.marks_report.mpr ⟨?_, inside.unclosed⟩, by simp⟩
    exact Document.marks_addPou marked.document inside.pou

theorem closing (word : ClosingWord) : (state.closing word).1.Marked known := by
  cases current : state.current with
  | none => simpa [State.closing, current] using marked
  | some scopes =>
    have inside := marked.current scopes current
    simp only [State.closing, current]
    cases word with
    | var =>
      simp only
      split
      · exact marked.setScopes ⟨inside.pou, by simp, inside.builder⟩
      · exact marked
    | get | set =>
      simp only
      split <;> exact marked
    | pou kind =>
      simp only
      split
      · exact marked.closePou
      · exact marked
    | method | property =>
      simp only
      split
      · exact marked
      · split
        · exact (marked.setScopes (.of_pou (scopes.pou.marks_closeMember inside.pou))).report
            inside.unfinished
        · exact marked

theorem openMember {member : Member} {problems : List Diagnostic} (here : member.marks ⊆ known)
    (inside : problems.flatMap Diagnostic.marks ⊆ known) :
    (state.openMember member problems).1.Marked known := by
  cases current : state.current with
  | none => simpa [State.openMember, current] using marked
  | some scopes =>
    have opened := marked.current scopes current
    simp only [State.openMember, current]
    split
    · rename_i block owner
      refine (marked.report ?_).setScopes (.of_pou ?_)
      · rw [List.flatMap_append, List.append_subset]
        exact ⟨opened.unfinished, inside⟩
      · have before := opened.pou
        simp only [owner, OpenPou.marks] at before ⊢
        simpa using ⟨by simpa using before, here⟩
    · exact marked
    · exact marked

theorem openMethod {header : MethodHeader} {pos : Position}
    (here : headerMarks "METHOD" pos ⊆ known) : (state.openMethod header pos).1.Marked known := by
  have place : pos.marks ⊆ known := fun mark member => here (List.mem_cons_of_mem _ member)
  apply marked.openMember
  · simp only [Member.marks, Method.marks, List.append_subset]
    refine ⟨⟨⟨here, ?_⟩, by simp⟩, by simp [Body.marks, lineNumbers]⟩
    -- Every parameter is placed on the line of the header.
    intro mark member
    obtain ⟨parameter, isParameter, rfl⟩ := List.mem_map.mp member
    obtain ⟨entry, -, kept⟩ := List.mem_filterMap.mp isParameter
    split at kept
    · cases kept
      exact place (by simp [Position.marks, Variable.mark])
    · cases kept
  · intro mark member
    obtain ⟨diagnostic, isProblem, inside⟩ := List.mem_flatMap.mp member
    obtain ⟨text, rfl⟩ := MethodHeader.mem_invalidParameters isProblem
    exact place inside

theorem openProperty {header : PropertyHeader} {pos : Position}
    (here : headerMarks "PROPERTY" pos ⊆ known) :
    (state.openProperty header pos).1.Marked known := by
  apply marked.openMember
  · simpa [Member.marks, Property.marks, Body.marks, lineNumbers] using here
  · simp

theorem openSection {header : SectionHeader} {pos : Position} (here : pos.marks ⊆ known) :
    (state.openSection header pos).1.Marked known := by
  cases current : state.current with
  | none => simpa [State.openSection, current] using marked
  | some scopes =>
    have inside := marked.current scopes current
    simp only [State.openSection, current]
    refine (marked.report inside.section_unclosed).setScopes ⟨inside.pou, ?_, inside.builder⟩
    simpa using here

theorem openPou {header : PouHeader} {pos : Position}
    (here : headerMarks header.kind.keyword pos ⊆ known) :
    (state.openPou header pos).1.Marked known := by
  simp only [State.openPou]
  split
  · exact marked
  · exact marked.setScopes (.of_pou (OpenPou.marks_ofHeader here))

theorem boundary {boundary : Boundary} {pos : Position} (here : pos.marks ⊆ known)
    (isHeader : ∀ keyword ∈ boundary.headerKeyword?, Mark.header keyword pos ∈ known) :
    (state.boundary pos boundary).1.Marked known := by
  have header (keyword : String) (has : boundary.headerKeyword? = some keyword) :
      headerMarks keyword pos ⊆ known :=
    List.cons_subset.mpr ⟨isHeader keyword has, here⟩
  cases boundary with
  | closing word => exact marked.closing word
  | pou opened => exact marked.openPou (header _ rfl)
  | method opened => exact marked.openMethod (header _ rfl)
  | property opened => exact marked.openProperty (header _ rfl)
  | varSection opened => exact marked.openSection here

theorem declare {scopes : Scopes} (inside : scopes.Marked known) {header : SectionHeader}
    {text : List Char} {line : Nat} {comment : Option String} (here : Mark.line line ∈ known) :
    (state.declare scopes header text line comment).1.Marked known := by
  have added (pou : OpenPou) (names : List String) (variableOf : String → Variable)
      (placed : ∀ name, (variableOf name).mark ∈ known) (before : pou.marks ⊆ known) :
      (names.foldl (fun pou name => pou.addVariable (variableOf name)) pou).marks ⊆ known := by
    induction names generalizing pou with
    | nil => exact before
    | cons name names ih => exact ih _ (pou.marks_addVariable _ before (placed name))
  simp only [State.declare]
  split
  · exact marked
  · split
    · exact marked
    · refine marked.setScopes ⟨?_, inside.varSection, inside.builder⟩
      exact added scopes.pou _ _ (fun _ => here) inside.pou

theorem statement {scopes : Scopes} (inside : scopes.Marked known) (sound : scopes.Sound)
    {text : List Char} {pos : Position} {line : SourceLine} (here : pos.marks ⊆ known)
    (onLine : Mark.line line.number ∈ known) :
    (state.statement scopes text pos line).1.Marked known := by
  let outcome := scopes.builder.feed scopes.pou.body.statements text pos
  obtain ⟨cursor, tracks⟩ := sound.tracks
  have body : Body.marks { scopes.pou.body with statements := outcome.root } ⊆ known := by
    obtain ⟨numbers, grown, from_offered⟩ := tracks.lineNumbers_feed text pos
    have before := scopes.pou.marks_body inside.pou
    have offered := Builder.offered_placed inside.builder here text
    simp only [Body.marks, List.append_subset] at before ⊢
    refine ⟨?_, before.2⟩
    rw [grown, List.map_append, List.append_subset]
    refine ⟨before.1, ?_⟩
    intro mark member
    obtain ⟨number, isNumber, rfl⟩ := List.mem_map.mp member
    rw [from_offered number isNumber]
    exact offered (by simp [Position.marks])
  have next : Scopes.Marked known
      { scopes with
        pou := scopes.pou.setBody { scopes.pou.body with statements := outcome.root }
        builder := outcome.builder } :=
    ⟨scopes.pou.marks_setBody inside.pou body, inside.varSection,
      Builder.feed_placed inside.builder here _ text⟩
  have reported : outcome.reported.flatMap Diagnostic.marks ⊆ known := by
    intro mark member
    obtain ⟨diagnostic, isReported, at_pos⟩ := List.mem_flatMap.mp member
    obtain ⟨problem, pending, isPending, rfl⟩ := Builder.feed_reported isReported
    exact inside.builder.2 pending isPending at_pos
  simp only [State.statement]
  split
  · exact (marked.report reported).setScopes next
  · exact (marked.report reported).setScopes (next.recordUnsupported onLine)
  · exact (marked.report reported).setScopes next

theorem content (sound : ∀ scopes ∈ state.current, scopes.Sound) {text : List Char} {pos : Position}
    {line : SourceLine} {comment : Option String} (here : pos.marks ⊆ known)
    (onLine : Mark.line line.number ∈ known) :
    (state.content text pos line comment).1.Marked known := by
  cases current : state.current with
  | none => simpa [State.content, current] using marked
  | some scopes =>
    have inside := marked.current scopes current
    simp only [State.content, current]
    split
    · exact marked.declare inside onLine
    · rename_i block property accessor idle owner _
      refine marked.setScopes ⟨?_, inside.varSection, inside.builder⟩
      have before := inside.pou
      rw [owner] at before
      cases accessor <;> exact before
    · exact marked.statement inside (sound scopes current) here onLine

theorem step (sound : ∀ scopes ∈ state.current, scopes.Sound) {step : Step}
    (inside : step.marks ⊆ known) : (state.step step).Marked known := by
  simp only [Step.marks, List.cons_append, List.cons_subset, List.append_subset] at inside
  obtain ⟨onLine, ⟨start, place⟩, header⟩ := inside
  have settled {outcome : State × Option Problem} (after : outcome.1.Marked known) :
      (settle outcome step.start).Marked known := by
    refine after.report ?_
    cases outcome.2 with
    | none => simp
    | some problem => simpa using start
  by_cases blank : step.text = []
  · rwa [State.step_of_blank state blank]
  · rw [if_neg blank] at place
    cases read : step.boundary? with
    | none =>
      rw [State.step_of_content state blank read]
      exact settled (marked.content sound place onLine)
    | some boundary =>
      rw [State.step_of_boundary state read]
      refine settled (marked.dropPending.boundary place fun keyword has => ?_)
      apply header
      simp [read, Option.mem_def.mp has]

theorem finish : state.finish.marks ⊆ known := by
  cases current : state.current with
  | none => simpa [State.finish, current] using marked.document
  | some scopes =>
    have inside := marked.current scopes current
    simp only [State.finish, current]
    refine Document.marks_report.mpr ⟨marked.closePou.document, ?_⟩
    simpa using scopes.pou.marks_pos inside.pou

end State.Marked

theorem marked_stateAfter {done : List Step} (inside : done.flatMap Step.marks ⊆ known) :
    (stateAfter done).Marked known := by
  induction done using List.reverseRecOn with
  | nil => exact ⟨by simp [stateAfter, Document.marks], by simp [stateAfter]⟩
  | append_singleton done step ih =>
    rw [List.flatMap_append, List.append_subset, List.flatMap_singleton] at inside
    rw [stateAfter_concat]
    exact (ih inside.1).step (fun scopes current => (sound_opened done scopes current).1) inside.2

end Marked

end StructuredText
