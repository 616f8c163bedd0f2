import StructuredText.Proofs.ModelChange
import StructuredText.Proofs.StructuralDiagnostics

set_option autoImplicit false

namespace StructuredText

-- Something stands in the expression, its brackets are even, and no semicolon is in it outside
-- strings and pragmas.
def isCompleteExpression (expression : List Char) : Bool :=
  !expression.isEmpty && bracketBalance none expression == 0 &&
    !(lexemes expression).contains .semicolon

def CodeLine.isComplete : CodeLine → Bool
  | assignment _ expression => isCompleteExpression expression.toList
  | ifThen _ | elsif _ | otherwise | endIf => true

namespace OpenPou

def bodies : OpenPou → List Body
  | functionBlock block member =>
    block.body :: block.methods.map Method.body ++ block.properties.map Property.body ++
      (member.map Member.body).toList
  | program p => [p.body]
  | function f => [f.body]

def codeLines (pou : OpenPou) : List CodeLine :=
  pou.bodies.flatMap fun body => openLines [] body.statements

end OpenPou

namespace Document

def codeLines (document : Document) : List CodeLine :=
  [.functionBlock, .program, .function].flatMap fun kind =>
    (document.pous kind).flatMap OpenPou.codeLines

def isComplete (document : Document) : Bool :=
  document.codeLines.all CodeLine.isComplete

end Document

def Builder.ended? (builder : Builder) (text : List Char) (pos : Position) : Option Assignment :=
  let (whole, _, continued) := builder.offered text pos
  let isBlock := !continued && (BlockWord.read? whole).isSome
  if isBlock || (ConditionalWord.read? whole).isSome then none
  else (Assignment.read? whole).filter Assignment.terminated

namespace Builder

variable {builder : Builder} {root : List Statement} {text : List Char} {pos : Position}

theorem build_of_assignment {continued : Bool} {assignment : Assignment}
    (noBlock : (!continued && (BlockWord.read? text).isSome) = false)
    (noWord : ConditionalWord.read? text = none) (read : Assignment.read? text = some assignment) :
    builder.build root text pos continued = builder.assign root text pos assignment := by
  have noBlockWord : (if continued then none else BlockWord.read? text) = none := by
    cases continued with
    | true => rfl
    | false => simpa using noBlock
  simp only [build, noBlockWord, noWord, read]

theorem lost_of_block {continued : Bool}
    (block : (!continued && (BlockWord.read? text).isSome) = true) :
    (builder.build root text pos continued).isKept = false := by
  obtain ⟨first, isBlock⟩ := Bool.and_eq_true_iff.mp block
  obtain rfl : continued = false := by simpa using first
  obtain ⟨word, read⟩ := Option.isSome_iff_exists.mp isBlock
  cases word <;> simp [build, read, Outcome.isKept]

theorem ended?_eq_some {assignment : Assignment} :
    builder.ended? text pos = some assignment ↔
      (!(builder.offered text pos).2.2 &&
          (BlockWord.read? (builder.offered text pos).1).isSome) = false ∧
        ConditionalWord.read? (builder.offered text pos).1 = none ∧
        Assignment.read? (builder.offered text pos).1 = some assignment ∧
        assignment.terminated = true := by
  simp only [ended?, Option.ite_none_left_eq_some, Bool.or_eq_true, not_or, Bool.not_eq_true,
    Option.filter_eq_some_iff, Option.isSome_eq_false_iff, Option.isNone_iff_eq_none, and_assoc]

theorem takeOffered_eq :
    builder.takeOffered root text pos =
      { builder with pending := none }.build root (builder.offered text pos).1
        (builder.offered text pos).2.1 (builder.offered text pos).2.2 := rfl

theorem accepted_of_ended {assignment : Assignment}
    (ended : builder.ended? text pos = some assignment) :
    builder.accepted root text pos = some assignment.codeLine := by
  obtain ⟨noBlock, noWord, read, terminated⟩ := ended?_eq_some.mp ended
  have kept : (builder.takeOffered root text pos).isKept = true := by
    rw [takeOffered_eq, build_of_assignment noBlock noWord read]
    simp [assign, terminated, Outcome.isKept]
  simp [accepted, kept, CodeLine.read?, noWord, read]

theorem takeOffered_result (silent : (builder.feed root text pos).reported = [])
    (fine : ∀ problem, (builder.feed root text pos).result ≠ .error problem) :
    (builder.takeOffered root text pos).result = (builder.feed root text pos).result := by
  obtain ⟨frames, blocks, pending⟩ := builder
  cases pending with
  | none => rfl
  | some pending =>
    simp only [feed, takeOffered, offered] at silent fine ⊢
    split
    · rename_i isWord
      simp [isWord] at silent
    · rename_i noWord
      rw [if_neg noWord] at silent
      cases taken : ({ frames, blocks, pending := none } : Builder).build root
          (pending.text ++ ' ' :: text) pending.pos true |>.result with
      | ok fed => simp [taken]
      | error problem => simp [taken] at silent

theorem ended_of_accepted {target expression : String}
    (accepted : builder.accepted root text pos = some (.assignment target expression))
    (silent : (builder.feed root text pos).reported = [])
    (fine : ∀ problem, (builder.feed root text pos).result ≠ .error problem) :
    ∃ assignment, builder.ended? text pos = some assignment ∧
      assignment.codeLine = .assignment target expression := by
  obtain ⟨kept, line⟩ := Option.ite_none_right_eq_some.mp accepted
  have result := takeOffered_result silent fine
  rw [takeOffered_eq] at kept result
  cases noWord : ConditionalWord.read? (builder.offered text pos).1 with
  | some word =>
    simp only [CodeLine.read?, noWord, Option.some.injEq] at line
    cases word <;> cases line
  | none =>
    simp only [CodeLine.read?, noWord, Option.map_eq_some_iff] at line
    obtain ⟨assignment, read, same⟩ := line
    have noBlock : (!(builder.offered text pos).2.2 &&
        (BlockWord.read? (builder.offered text pos).1).isSome) = false := by
      by_contra block
      rw [lost_of_block (Bool.not_eq_false _ ▸ block)] at kept
      cases kept
    refine ⟨assignment, ended?_eq_some.mpr ⟨noBlock, noWord, read, ?_⟩, same⟩
    rw [build_of_assignment noBlock noWord read] at kept result
    by_contra ends
    have unfinished : assignment.terminated = false := Bool.not_eq_true _ ▸ ends
    by_cases goesOn : expectsMore assignment.expression = true
    · simp [assign, unfinished, goesOn, Outcome.isKept] at kept
    · refine fine .missingSemicolon (result.symm.trans ?_)
      simp [assign, unfinished, goesOn]

theorem mem_openLines_fill {code : CodeLine} (notEnd : code ≠ .endIf) (ifs : List OpenIf)
    (inner : List Statement) :
    code ∈ openLines [] (fill ifs inner) ↔
      code ∈ ifs.flatMap OpenIf.lines ++ openLines [] inner := by
  induction ifs with
  | nil => simp
  | cons opened ifs ih =>
    rw [fill_cons, OpenIf.openLines_nil_close]
    simp [ih, notEnd]

theorem Tracks.mem_feed {cursor : Cursor} (tracks : builder.Tracks root cursor) {code : CodeLine}
    (notEnd : code ≠ .endIf) :
    code ∈ openLines [] (builder.feed root text pos).root ↔
      code ∈ openLines [] root ∨ builder.accepted root text pos = some code := by
  have atCursor {other : Builder} {tree : List Statement} {cursor : Cursor}
      (follows : other.Tracks tree cursor) : code ∈ openLines [] tree ↔ code ∈ cursor.lines := by
    rw [follows.root]
    exact mem_openLines_fill notEnd cursor.ifs cursor.inner
  obtain ⟨after, follows, lines⟩ := tracks.feed_written text pos
  rw [atCursor follows, atCursor tracks, lines]
  simp

end Builder

namespace OpenPou

variable {pou : OpenPou} {code : CodeLine}

theorem exists_otherLines (pou : OpenPou) :
    ∃ others : List CodeLine, ∀ (body : Body) (code : CodeLine),
      code ∈ (pou.setBody body).codeLines ↔
        code ∈ openLines [] body.statements ∨ code ∈ others := by
  rcases pou with ⟨block, _ | member⟩ | program | function
  · exact ⟨(block.methods.map Method.body ++ block.properties.map Property.body).flatMap
      fun body => openLines [] body.statements, fun body code => by
        simp [codeLines, bodies, setBody]⟩
  · refine ⟨(OpenPou.functionBlock block none).codeLines, fun body code => ?_⟩
    cases member <;>
      simp [codeLines, bodies, setBody, Member.setBody, Member.body, or_comm, or_left_comm]
  · exact ⟨[], fun body code => by simp [codeLines, bodies, setBody]⟩
  · exact ⟨[], fun body code => by simp [codeLines, bodies, setBody]⟩

theorem mem_setBody (pou : OpenPou) (body : Body) {new : Prop}
    (grown : code ∈ openLines [] body.statements ↔ code ∈ openLines [] pou.body.statements ∨ new) :
    code ∈ (pou.setBody body).codeLines ↔ code ∈ pou.codeLines ∨ new := by
  obtain ⟨others, split⟩ := pou.exists_otherLines
  have own := split pou.body code
  rw [setBody_body] at own
  rw [split, own, grown]
  tauto

theorem mem_setBody_same (pou : OpenPou) {body : Body}
    (same : body.statements = pou.body.statements) :
    code ∈ (pou.setBody body).codeLines ↔ code ∈ pou.codeLines := by
  obtain ⟨others, split⟩ := pou.exists_otherLines
  rw [split, same, ← split, setBody_body]

theorem mem_setMember {member : Member} (isOpen : pou.member? = some member) (text : String) :
    code ∈ (pou.setMember (some (member.addImplementation text))).codeLines ↔
      code ∈ pou.codeLines := by
  cases pou with
  | functionBlock block inner =>
    obtain rfl : inner = some member := isOpen
    cases member <;> rfl
  | program p => cases isOpen
  | function f => cases isOpen

theorem codeLines_addVariable (v : Variable) : (pou.addVariable v).codeLines = pou.codeLines := by
  rcases pou with ⟨block, _ | (method | property)⟩ | program | function
  · rfl
  · simp only [addVariable]
    split <;> rfl
  · rfl
  · rfl
  · simp only [addVariable]
    split <;> rfl

theorem codeLines_foldl_addVariable (vs : List Variable) :
    (vs.foldl (fun pou v => pou.addVariable v) pou).codeLines = pou.codeLines := by
  induction vs generalizing pou with
  | nil => rfl
  | cons v vs ih => rw [List.foldl_cons, ih, codeLines_addVariable]

theorem codeLines_withAccessor {accessor : Accessor} {next : OpenPou}
    (amended : pou.withAccessor? accessor = some next) : next.codeLines = pou.codeLines := by
  rcases pou with ⟨block, _ | (method | property)⟩ | program | function <;> cases amended
  cases accessor <;> rfl

theorem mem_closeMember : code ∈ pou.closeMember.codeLines ↔ code ∈ pou.codeLines := by
  rcases pou with ⟨block, _ | (method | property)⟩ | program | function
  · rfl
  · simp [closeMember, FunctionBlock.addMember, codeLines, bodies, Member.body, or_comm]
  · simp [closeMember, FunctionBlock.addMember, codeLines, bodies, Member.body]
  · rfl
  · rfl

theorem codeLines_ofHeader (header : PouHeader) (pos : Position) :
    (ofHeader header pos).codeLines = [] := by
  cases kind : header.kind <;> simp [ofHeader, kind, codeLines, bodies, openLines]

theorem codeLines_member (block : FunctionBlock) {member : Member} (fresh : member.body = {}) :
    (functionBlock block (some member)).codeLines = (functionBlock block none).codeLines := by
  simp [codeLines, bodies, fresh, openLines]

end OpenPou

namespace Document

variable {code : CodeLine}

theorem mem_codeLines_addPou (document : Document) (pou : OpenPou) :
    code ∈ (document.addPou pou).codeLines ↔ code ∈ document.codeLines ∨ code ∈ pou.codeLines := by
  rw [← pou.mem_closeMember]
  rcases pou with ⟨block, _ | member⟩ | program | function
  all_goals
    simp [codeLines, addPou, pous, OpenPou.closeMember, or_assoc, or_comm, or_left_comm]

@[simp] theorem codeLines_unreported (document : Document) :
    document.unreported.codeLines = document.codeLines := rfl

@[simp] theorem codeLines_report (document : Document) (diagnostics : List Diagnostic) :
    (document.report diagnostics).codeLines = document.codeLines := rfl

end Document

namespace Scopes

variable {scopes : Scopes} {step : Step} {code : CodeLine}

theorem mem_recordUnsupported (scopes : Scopes) (text : List Char) (line : SourceLine) :
    code ∈ (State.recordUnsupported scopes text line).pou.codeLines ↔
      code ∈ scopes.pou.codeLines := by
  simp only [State.recordUnsupported]
  split
  · exact scopes.pou.mem_setBody_same rfl
  · rename_i member isOpen
    split
    · exact scopes.pou.mem_setBody_same rfl
    · exact (OpenPou.mem_setMember isOpen _).trans (scopes.pou.mem_setBody_same rfl)

theorem mem_withCode (sound : scopes.Sound) (notEnd : code ≠ .endIf) :
    code ∈ (scopes.withCode step).codeLines ↔
      code ∈ scopes.pou.codeLines ∨
        scopes.builder.accepted scopes.pou.body.statements step.text step.pos = some code := by
  obtain ⟨cursor, tracks⟩ := sound.tracks
  have fed := scopes.pou.mem_setBody { scopes.pou.body with
    statements := (scopes.builder.feed scopes.pou.body.statements step.text step.pos).root }
    (tracks.mem_feed notEnd)
  unfold withCode
  simp only
  split
  · exact (mem_recordUnsupported ..).trans fed
  · exact fed

def Accepts (scopes : Scopes) (step : Step) (code : CodeLine) : Prop :=
  scopes.TakesAsCode step ∧
    scopes.builder.accepted scopes.pou.body.statements step.text step.pos = some code

theorem mem_withVariables (header : SectionHeader) (step : Step) :
    (scopes.withVariables header step).codeLines = scopes.pou.codeLines := by
  unfold withVariables
  split
  · rfl
  · exact OpenPou.codeLines_foldl_addVariable _

theorem mem_of_revises (sound : scopes.Sound) (notEnd : code ≠ .endIf) {next : Option OpenPou}
    (revises : scopes.Revises step next) :
    code ∈ (next.getD scopes.pou).codeLines ↔
      code ∈ scopes.pou.codeLines ∨ scopes.Accepts step code := by
  have unchanged {pou : OpenPou} (same : pou.codeLines = scopes.pou.codeLines)
      (other : ¬ scopes.TakesAsCode step) :
      code ∈ pou.codeLines ↔ code ∈ scopes.pou.codeLines ∨ scopes.Accepts step code := by
    simp [same, Accepts, other]
  cases revises with
  | blank blank => exact unchanged rfl fun code => code.nonempty blank
  | boundary read => exact unchanged rfl fun code => by simp [code.noBoundary] at read
  | method read owner =>
    exact unchanged (by rw [owner]; exact OpenPou.codeLines_member _ rfl)
      fun code => by simp [code.noBoundary] at read
  | property read owner =>
    exact unchanged (by rw [owner]; exact OpenPou.codeLines_member _ rfl)
      fun code => by simp [code.noBoundary] at read
  | declaration noBoundary inSection =>
    exact unchanged (mem_withVariables ..) fun code => by simp [code.noSection] at inSection
  | accessor noBoundary noSection amended =>
    obtain ⟨_, -, isAmended⟩ := Option.bind_eq_some_iff.mp amended
    exact unchanged (OpenPou.codeLines_withAccessor isAmended)
      fun code => by simp [code.noAccessor] at amended
  | code code => simpa [Accepts, code] using mem_withCode sound notEnd

end Scopes

namespace State

variable {state : State} {scopes : Scopes} {code : CodeLine}

theorem mem_step (sound : ∀ scopes, state.current = some scopes → scopes.Sound)
    (step : Step) (notEnd : code ≠ .endIf) :
    code ∈ (state.step step).model.codeLines ↔
      code ∈ state.model.codeLines ∨
        ∃ scopes, state.current = some scopes ∧ scopes.Accepts step code := by
  rw [← Document.codeLines_unreported, unreported_step, Document.codeLines_unreported]
  cases current : state.current with
  | none =>
    have model : state.model = state.document := by simp [State.model, current]
    rcases revision_of_closed current step with none | ⟨header, opens⟩
    · simp [none]
    · simp [opens, model, Document.mem_codeLines_addPou, OpenPou.codeLines_ofHeader]
  | some scopes =>
    have grown := Scopes.mem_of_revises (sound scopes current) notEnd
      (revision_of_open current step)
    rw [model_of_open current]
    cases revision : state.revision? step with
    | none =>
      rw [revision, Option.getD_none] at grown
      simp [Document.mem_codeLines_addPou, or_assoc, ← grown]
    | some next =>
      rw [revision, Option.getD_some] at grown
      simp [Document.mem_codeLines_addPou, or_assoc, ← grown]

theorem exists_split_concat {holds : List Step → Step → Prop} (done : List Step) (last : Step) :
    (∃ before step after, done ++ [last] = before ++ step :: after ∧ holds before step) ↔
      (∃ before step after, done = before ++ step :: after ∧ holds before step) ∨
        holds done last := by
  constructor
  · rintro ⟨before, step, after, split, found⟩
    rcases List.eq_nil_or_concat after with rfl | ⟨inner, other, rfl⟩
    · obtain ⟨rfl, same⟩ := List.append_inj' split rfl
      obtain rfl : last = step := List.singleton_inj.mp same
      exact .inr found
    · rw [List.concat_eq_append, ← List.cons_append, ← List.append_assoc] at split
      obtain ⟨rfl, -⟩ := List.append_inj' split rfl
      exact .inl ⟨before, step, inner, rfl, found⟩
  · rintro (⟨before, step, after, rfl, found⟩ | found)
    · exact ⟨before, step, after ++ [last], by simp, found⟩
    · exact ⟨done, last, [], rfl, found⟩

theorem mem_stateAfter (done : List Step) (notEnd : code ≠ .endIf) :
    code ∈ (stateAfter done).model.codeLines ↔
      ∃ before step after, done = before ++ step :: after ∧
        ∃ scopes, (stateAfter before).current = some scopes ∧ scopes.Accepts step code := by
  induction done using List.reverseRecOn with
  | nil => simp [stateAfter, model, Document.codeLines, Document.pous]
  | append_singleton done last ih =>
    have sound (scopes : Scopes) (current : (stateAfter done).current = some scopes) :
        scopes.Sound := (sound_opened done scopes current).1
    rw [stateAfter_concat, mem_step sound last notEnd, ih, exists_split_concat]

theorem codeLines_finish (state : State) : state.finish.codeLines = state.model.codeLines := by
  cases current : state.current with
  | none => simp [finish, model, current]
  | some scopes => simp [finish, closePou, model, current]

theorem finish_run (state : State) (steps : List Step) :
    (state.run steps).finish =
      state.document ++ (State.run { current := state.current } steps).finish := by
  have onto : state = State.after state.document { current := state.current } := by
    simp [after, Document.append_empty]
  conv_lhs => rw [onto, after_run, after_finish]

theorem silent_of_clean {step : Step} (current : state.current = some scopes)
    (code : scopes.TakesAsCode step) (clean : (state.step step).document.diagnostics = []) :
    (scopes.builder.feed scopes.pou.body.statements step.text step.pos).reported = [] ∧
      ∀ problem, (scopes.builder.feed scopes.pou.body.statements step.text step.pos).result ≠
        .error problem := by
  rw [step_of_content state code.nonempty code.noBoundary, content_eq_take] at clean
  simp only [take, current, code.noSection, code.noAccessor, accept] at clean
  generalize scopes.builder.feed scopes.pou.body.statements step.text step.pos = outcome at clean ⊢
  cases result : outcome.result with
  | error problem => simp [result, settle, report, setScopes] at clean
  | ok fed =>
    cases fed <;> simp_all [settle, report, setScopes]

end State

theorem diagnostics_of_clean {source : String} (clean : (parse source).diagnostics = [])
    {done rest : List Step} (split : steps source = done ++ rest) :
    (stateAfter done).document.diagnostics = [] := by
  obtain ⟨unterminated, -, result⟩ := parse_eq_run source
  rw [result, split, State.run_append, State.finish_run] at clean
  have parts := List.append_eq_nil_iff.mp clean
  exact (List.append_eq_nil_iff.mp parts.1).1

theorem isComplete_iff_ended {source : String} (clean : (parse source).diagnostics = []) :
    (parse source).isComplete = true ↔
      ∀ before step after, steps source = before ++ step :: after →
        ∀ scopes, (stateAfter before).current = some scopes → scopes.TakesAsCode step →
          ∀ assignment, scopes.builder.ended? step.text step.pos = some assignment →
            isCompleteExpression assignment.expression = true := by
  have lines : (parse source).codeLines = (stateAfter (steps source)).model.codeLines := by
    obtain ⟨unterminated, -, result⟩ := parse_eq_run source
    rw [result, Document.codeLines_report, State.codeLines_finish]
    rfl
  rw [Document.isComplete, lines, List.all_eq_true]
  constructor
  · intro complete before step after split scopes current code assignment ended
    have accepts : scopes.Accepts step assignment.codeLine :=
      ⟨code, Builder.accepted_of_ended ended⟩
    have member := (State.mem_stateAfter (steps source) (by simp [Assignment.codeLine])).mpr
      ⟨before, step, after, split, scopes, current, accepts⟩
    simpa [CodeLine.isComplete, Assignment.codeLine] using complete _ member
  · intro complete code member
    cases code with
    | ifThen | elsif | otherwise | endIf => rfl
    | assignment target expression =>
      -- An assignment of the document has been accepted, and nothing was reported with it.
      obtain ⟨before, step, after, split, scopes, current, isCode, accepted⟩ :=
        (State.mem_stateAfter (steps source) (by simp)).mp member
      have silent : ((stateAfter before).step step).document.diagnostics = [] := by
        rw [← stateAfter_concat]
        exact diagnostics_of_clean clean (split.trans (List.append_cons ..))
      obtain ⟨noReport, noProblem⟩ := State.silent_of_clean current isCode silent
      obtain ⟨assignment, ended, same⟩ :=
        Builder.ended_of_accepted accepted noReport noProblem
      have isComplete := complete before step after split scopes current isCode assignment ended
      rw [← same]
      simpa [CodeLine.isComplete, Assignment.codeLine] using isComplete

def bracketedSource : String :=
  "PROGRAM P\nx := f(a,\nb);\nEND_PROGRAM\n"

theorem isComplete_bracketedSource :
    (parse bracketedSource).diagnostics = [] ∧ (parse bracketedSource).isComplete = true ∧
      ∀ before step after, steps bracketedSource = before ++ step :: after →
        ∀ scopes, (stateAfter before).current = some scopes → scopes.TakesAsCode step →
          ∀ assignment, scopes.builder.ended? step.text step.pos = some assignment →
            isCompleteExpression assignment.expression = true := by
  have complete : (parse bracketedSource).diagnostics = [] ∧
      (parse bracketedSource).isComplete = true := by decide +kernel
  exact ⟨complete.1, complete.2, (isComplete_iff_ended complete.1).mp complete.2⟩

def callSource : String :=
  "PROGRAM P\n  fb(IN := a,\n     PT := b);\nEND_PROGRAM\n"

theorem incomplete_callSource :
    (parse callSource).diagnostics = [] ∧
      (parse callSource).codeLines = [.assignment "PT" "b)"] ∧
      (parse callSource).isComplete = false := by
  decide +kernel

end StructuredText
