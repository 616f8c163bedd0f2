import StructuredText.Proofs.DocumentGrammar
import StructuredText.Proofs.OpenConstruct

set_option autoImplicit false

namespace StructuredText

open DocumentGrammar

def Problem.isStructural : Problem → Bool
  | nestedPou | nestedMember _ | memberOutsideFunctionBlock _ | unclosed _ _ | unclosedSection _
  | sectionOutsidePou | mismatchedEnd _ _ _ => true
  | unexpectedKeyword keyword => ClosingWord.all.any fun word => word.keyword == keyword
  | _ => false

def Problem.isOfStatement : Problem → Bool
  | unclosedIf | elsifAfterElse | duplicateElse | unterminatedStatement _ | missingSemicolon
  | missingCondition _ => true
  | unexpectedKeyword keyword => !(ClosingWord.all.any fun word => word.keyword == keyword)
  | _ => false

theorem Problem.isStructural_of_isOfStatement {problem : Problem}
    (ofStatement : problem.isOfStatement = true) : problem.isStructural = false := by
  cases problem <;> simp_all [isOfStatement, isStructural]

def boundaries (source : String) : List Boundary :=
  (steps source).filterMap Step.boundary?

def orderly (diagnostics : List Diagnostic) : Bool :=
  diagnostics.all fun diagnostic => !diagnostic.problem.isStructural

@[simp] theorem orderly_nil : orderly [] = true := rfl

@[simp] theorem orderly_at (problem : Problem) (pos : Position) :
    orderly [problem.at pos] = !problem.isStructural := by
  simp [orderly, Problem.at]

@[simp] theorem orderly_append (before after : List Diagnostic) :
    orderly (before ++ after) = (orderly before && orderly after) :=
  List.all_append

@[simp] theorem isStructural_closing (word : ClosingWord) :
    (Problem.unexpectedKeyword word.keyword).isStructural = true := by
  cases word with
  | pou kind => cases kind <;> decide
  | _ => decide

@[simp] theorem Pending.orderly_unterminated (pending : Pending) :
    orderly [pending.unterminated] = true := rfl

@[simp] theorem OpenSection.orderly_unclosed (opened : OpenSection) :
    orderly [opened.unclosed] = false := rfl

namespace Builder

@[simp] theorem orderly_pending (builder : Builder) :
    orderly (builder.pending.map Pending.unterminated).toList = true := by
  cases builder.pending <;> simp

@[simp] theorem orderly_close (builder : Builder) : orderly builder.close = true := by
  rw [close, orderly_append, orderly_pending, Bool.true_and]
  cases builder.frames.head? with
  | none => rfl
  | some frame => rfl

theorem missingCondition?_isOfStatement {keyword condition : String} {problem : Problem}
    (missing : missingCondition? keyword condition = some problem) :
    problem.isOfStatement = true := by
  simp only [missingCondition?, Option.ite_none_right_eq_some, Option.some.injEq] at missing
  rw [← missing.2]
  rfl

theorem openBranch_isOfStatement {builder : Builder} {root : List Statement} {keyword : String}
    {afterElse : Problem} {change : Conditional → Conditional × Branch}
    {missing : Option Problem} {problem : Problem}
    (unexpected : (Problem.unexpectedKeyword keyword).isOfStatement = true)
    (late : afterElse.isOfStatement = true)
    (lacks : ∀ problem, missing = some problem → problem.isOfStatement = true)
    (failed : (builder.openBranch root keyword afterElse change missing).2.2 = some problem) :
    problem.isOfStatement = true := by
  unfold openBranch at failed
  split at failed
  · cases failed
    exact unexpected
  split at failed
  · cases failed
    exact late
  split at failed
  · cases failed
    exact unexpected
  · exact lacks problem failed

theorem conditional_isOfStatement {builder : Builder} {root : List Statement} {pos : Position}
    {word : ConditionalWord} {problem : Problem}
    (failed : (builder.conditional root pos word).2.2 = some problem) :
    problem.isOfStatement = true := by
  cases word with
  | ifThen condition => exact missingCondition?_isOfStatement failed
  | elsif condition =>
    exact openBranch_isOfStatement (by decide) rfl (fun _ => missingCondition?_isOfStatement) failed
  | otherwise => exact openBranch_isOfStatement (by decide) rfl (by simp) failed
  | endIf =>
    simp only [conditional] at failed
    split at failed
    · cases failed
      decide
    · cases failed

theorem assign_isOfStatement {builder : Builder} {root : List Statement} {text : List Char}
    {pos : Position} {assignment : Assignment} {problem : Problem}
    (failed : (builder.assign root text pos assignment).result = .error problem) :
    problem.isOfStatement = true := by
  simp only [assign] at failed
  split at failed
  · cases failed
  · cases terminated : assignment.terminated with
    | true => simp [terminated] at failed
    | false =>
      obtain rfl : Problem.missingSemicolon = problem := by simpa [terminated] using failed
      rfl

theorem build_isOfStatement {builder : Builder} {root : List Statement} {text : List Char}
    {pos : Position} {continued : Bool} {problem : Problem}
    (failed : (builder.build root text pos continued).result = .error problem) :
    problem.isOfStatement = true := by
  simp only [build] at failed
  split at failed
  · cases failed
  · cases failed
  split at failed
  · split at failed
    · cases failed
    split at failed
    · cases failed
    · rename_i result
      cases failed
      exact conditional_isOfStatement (congrArg (·.2.2) result)
  · exact assign_isOfStatement failed
  · split at failed
    · split at failed <;> cases failed
      rfl
    · split at failed <;> cases failed
      rfl

theorem feed_isOfStatement (builder : Builder) (root : List Statement) (text : List Char)
    (pos : Position) :
    (∀ diagnostic ∈ (builder.feed root text pos).reported,
        diagnostic.problem.isOfStatement = true) ∧
      ∀ problem, (builder.feed root text pos).result = .error problem →
        problem.isOfStatement = true := by
  simp only [feed]
  split
  · exact ⟨by simp [build_reported], fun _ => build_isOfStatement⟩
  split
  · exact ⟨by simp [Pending.unterminated, Problem.at, Problem.isOfStatement],
      fun _ => build_isOfStatement⟩
  split
  · rename_i fed result
    refine ⟨by simp [build_reported], fun problem failed => ?_⟩
    rw [result] at failed
    cases failed
  · rename_i problem result
    refine ⟨?_, fun other failed => ?_⟩
    · simpa [Problem.at] using build_isOfStatement result
    · cases failed

theorem feed_isStructural (builder : Builder) (root : List Statement) (text : List Char)
    (pos : Position) :
    orderly (builder.feed root text pos).reported = true ∧
      ∀ problem, (builder.feed root text pos).result = .error problem →
        problem.isStructural = false := by
  obtain ⟨reported, failed⟩ := builder.feed_isOfStatement root text pos
  refine ⟨?_, fun problem result => Problem.isStructural_of_isOfStatement (failed problem result)⟩
  simp only [orderly, List.all_eq_true]
  intro diagnostic member
  rw [Problem.isStructural_of_isOfStatement (reported diagnostic member)]
  rfl

end Builder

@[simp] theorem Document.diagnostics_report (document : Document) (diagnostics : List Diagnostic) :
    (document.report diagnostics).diagnostics = document.diagnostics ++ diagnostics := rfl

@[simp] theorem Scopes.orderly_unfinished (scopes : Scopes) :
    orderly scopes.unfinished = scopes.varSection.isNone := by
  rw [unfinished, orderly_append, Builder.orderly_close, Bool.and_true]
  cases scopes.varSection with
  | none => rfl
  | some opened => rfl

@[simp] theorem Scopes.orderly_unclosed (scopes : Scopes) :
    orderly scopes.unclosed = (scopes.varSection.isNone && scopes.pou.member?.isNone) := by
  rw [unclosed, orderly_append, orderly_unfinished]
  cases scopes.pou.member? with
  | none => rfl
  | some member => rfl

def Scopes.place (scopes : Scopes) : Place :=
  match scopes.pou.member?.map Member.construct with
  | some .method => .inMethod scopes.varSection.isSome
  | some .property => .inProperty scopes.varSection.isSome
  | _ => .inPou scopes.pou.kind scopes.varSection.isSome

@[simp] theorem OpenPou.identity_kind (pou : OpenPou) : pou.identity.kind = pou.kind := by
  cases pou <;> rfl

@[simp] theorem OpenPou.identity_construct (pou : OpenPou) :
    pou.identity.member.map Prod.fst = pou.member?.map Member.construct := by
  rcases pou with ⟨block, _ | member⟩ | program | function <;> rfl

namespace Scopes

variable (scopes : Scopes)

theorem follow_var :
    scopes.place.follow (.closing .var) =
      if scopes.varSection.isSome then some { scopes with varSection := none }.place else none := by
  obtain ⟨⟨_, _ | method | property⟩ | program | function, varSection, builder, copied⟩ := scopes
  all_goals cases varSection <;> rfl

theorem follow_accessorEnd {word : ClosingWord} (isEnd : word = .get ∨ word = .set) :
    scopes.place.follow (.closing word) =
      if scopes.pou.member?.any (·.construct = .property) then some scopes.place else none := by
  obtain ⟨⟨_, _ | method | property⟩ | program | function, varSection, builder, copied⟩ := scopes
  all_goals rcases isEnd with rfl | rfl <;> cases varSection <;> rfl

theorem follow_memberEnd {word : ClosingWord} {construct : Construct}
    (ends : word = .method ∧ construct = .method ∨ word = .property ∧ construct = .property) :
    scopes.place.follow (.closing word) =
      if scopes.pou.member?.any (·.construct = construct) && scopes.varSection.isNone then
        some { pou := scopes.pou.closeMember : Scopes }.place
      else none := by
  obtain ⟨⟨_, _ | method | property⟩ | program | function, varSection, builder, copied⟩ := scopes
  all_goals rcases ends with ⟨rfl, rfl⟩ | ⟨rfl, rfl⟩ <;> cases varSection <;> rfl

theorem follow_pouEnd (kind : PouKind) :
    scopes.place.follow (.closing (.pou kind)) =
      if scopes.pou.kind = kind ∧ scopes.pou.member?.isNone ∧ scopes.varSection.isNone then
        some .outside
      else none := by
  obtain ⟨⟨_, _ | method | property⟩ | program | function, varSection, builder, copied⟩ := scopes
  all_goals cases varSection <;> cases kind <;> rfl

theorem follow_pou (header : PouHeader) : scopes.place.follow (.pou header) = none := by
  obtain ⟨⟨_, _ | method | property⟩ | program | function, varSection, builder, copied⟩ := scopes
  all_goals cases varSection <;> rfl

theorem follow_varSection (header : SectionHeader) (opened : OpenSection) :
    scopes.place.follow (.varSection header) =
      if scopes.varSection.isNone then some { scopes with varSection := some opened }.place
      else none := by
  obtain ⟨⟨_, _ | method | property⟩ | program | function, varSection, builder, copied⟩ := scopes
  all_goals cases varSection <;> rfl

theorem follow_member {boundary : Boundary} {member : Member}
    (opens : (∃ header method, boundary = .method header ∧ member = .method method) ∨
      ∃ header property, boundary = .property header ∧ member = .property property) :
    scopes.place.follow boundary =
      match scopes.pou with
      | .functionBlock block none =>
        if scopes.varSection.isNone then
          some { pou := .functionBlock block (some member) : Scopes }.place
        else none
      | _ => none := by
  obtain ⟨⟨_, _ | method | property⟩ | program | function, varSection, builder, copied⟩ := scopes
  all_goals rcases opens with ⟨_, _, rfl, rfl⟩ | ⟨_, _, rfl, rfl⟩ <;> cases varSection <;> rfl

theorem place_congr {scopes next : Scopes} (identity : next.pou.identity = scopes.pou.identity)
    (varSection : next.varSection = scopes.varSection) : next.place = scopes.place := by
  have kind := congrArg OpenPou.Identity.kind identity
  have member := congrArg (·.member.map Prod.fst) identity
  simp only [OpenPou.identity_kind, OpenPou.identity_construct] at kind member
  simp only [place, kind, member, varSection]

theorem Change.place {step : Step} {scopes next : Scopes} (change : scopes.Change step next)
    (read : step.boundary? = none) : next.place = scopes.place := by
  cases change with
  | varSection _ boundary => exact absurd read boundary
  | amend pou identity => exact place_congr identity rfl
  | feed outcome pou copiedLine idle fed identity => exact place_congr identity rfl
  | openMember block member owner header => simp [read] at header
  | closeMember block member boundary => exact absurd read boundary

end Scopes

namespace State

def place (state : State) : Place :=
  (state.current.map Scopes.place).getD .outside

def place? (state : State) : Option Place :=
  if orderly state.document.diagnostics then some state.place else none

@[simp] theorem orderly_report (state : State) (diagnostics : List Diagnostic) :
    orderly (state.report diagnostics).document.diagnostics =
      (orderly state.document.diagnostics && orderly diagnostics) :=
  orderly_append ..

@[simp] theorem place?_report (state : State) (diagnostics : List Diagnostic) :
    (state.report diagnostics).place? = if orderly diagnostics then state.place? else none := by
  simp only [place?, place, report, Document.diagnostics_report, orderly_append, Bool.and_eq_true]
  by_cases minor : orderly diagnostics = true
  · simp [minor]
  · simp [minor]

@[simp] theorem place?_settle_none (state : State) (start : Position) :
    (settle (state, none) start).place? = state.place? := by
  simp [settle]

@[simp] theorem place?_settle_some (state : State) (problem : Problem) (start : Position) :
    (settle (state, some problem) start).place? =
      if problem.isStructural then none else state.place? := by
  cases structural : problem.isStructural <;> simp [settle, structural]

theorem place?_setScopes (state : State) (scopes : Scopes) :
    (state.setScopes scopes).place? =
      if orderly state.document.diagnostics then some scopes.place else none := rfl

theorem place?_of_open {state : State} {scopes : Scopes} (opened : state.current = some scopes) :
    state.place? = if orderly state.document.diagnostics then some scopes.place else none := by
  simp [place?, place, opened]

theorem place?_of_closed {state : State} (closed : state.current = none) :
    state.place? = if orderly state.document.diagnostics then some .outside else none := by
  simp [place?, place, closed]

theorem place?_dropPending (state : State) : state.dropPending.place? = state.place? := by
  cases opened : state.current with
  | none => simp [dropPending, opened]
  | some scopes =>
    rw [dropPending_of_open opened, place?_report, place?_setScopes, place?_of_open opened]
    simp only [Builder.dropPending, Builder.orderly_pending, if_true]
    rfl

theorem place?_closePou {state : State} {scopes : Scopes} (opened : state.current = some scopes) :
    state.closePou.place? =
      if scopes.varSection.isNone && scopes.pou.member?.isNone then
        if orderly state.document.diagnostics then some .outside else none
      else none := by
  simp only [closePou, opened, place?, place, Document.diagnostics_report,
    Document.diagnostics_addPou, orderly_append, Scopes.orderly_unclosed, Option.map_none,
    Option.getD_none]
  cases orderly state.document.diagnostics <;>
    cases (scopes.varSection.isNone && scopes.pou.member?.isNone) <;> rfl

theorem bind_place? {state : State} {scopes : Scopes} (opened : state.current = some scopes)
    (boundary : Boundary) :
    state.place?.bind (·.follow boundary) =
      if orderly state.document.diagnostics then scopes.place.follow boundary else none := by
  rw [place?_of_open opened]
  split <;> rfl

theorem place?_memberEnd {state : State} {scopes : Scopes} (opened : state.current = some scopes)
    {word : ClosingWord} {construct : Construct}
    (ends : word = .method ∧ construct = .method ∨ word = .property ∧ construct = .property)
    (start : Position) :
    (settle (state.closing word) start).place? =
      if orderly state.document.diagnostics then scopes.place.follow (.closing word) else none := by
  rw [scopes.follow_memberEnd ends]
  rcases ends with ⟨rfl, rfl⟩ | ⟨rfl, rfl⟩
  all_goals
    simp only [closing, opened]
    cases isOpen : scopes.pou.member? with
    | none => simp
    | some member =>
      simp only
      split
      · rename_i same
        cases inSection : scopes.varSection <;> simp [same, inSection, place?_setScopes]
      · rename_i other
        simp [other, Problem.isStructural]

theorem place?_closing (state : State) (word : ClosingWord) (start : Position) :
    (settle (state.closing word) start).place? = state.place?.bind (·.follow (.closing word)) := by
  cases opened : state.current with
  | none =>
    rw [place?_of_closed opened]
    simp only [closing, opened, place?_settle_some, isStructural_closing, if_true]
    split <;> rfl
  | some scopes =>
    rw [bind_place? opened]
    cases word with
    | var =>
      rw [scopes.follow_var]
      simp only [closing, opened]
      by_cases inSection : scopes.varSection.isSome = true
      · simp [inSection, place?_setScopes]
      · simp [inSection]
    | get | set =>
      rw [scopes.follow_accessorEnd (by simp)]
      simp only [closing, opened]
      by_cases inProperty : scopes.pou.member?.any (·.construct = .property) = true
      · simp [inProperty, place?_of_open opened]
      · simp [inProperty]
    | method => exact place?_memberEnd opened (.inl ⟨rfl, rfl⟩) start
    | property => exact place?_memberEnd opened (.inr ⟨rfl, rfl⟩) start
    | pou kind =>
      rw [scopes.follow_pouEnd]
      simp only [closing, opened]
      by_cases same : scopes.pou.kind = kind
      · rw [if_pos same, place?_settle_none, place?_closePou opened]
        cases scopes.varSection <;> cases scopes.pou.member? <;> simp [same]
      · simp [same, Problem.isStructural]

theorem place?_openPou (state : State) (header : PouHeader) (pos start : Position) :
    (settle (state.openPou header pos) start).place? =
      state.place?.bind (·.follow (.pou header)) := by
  cases opened : state.current with
  | none =>
    have fresh : Scopes.place { pou := .ofHeader header pos } = .inPou header.kind false := by
      obtain ⟨kind, name, returnType, base, interfaces⟩ := header
      cases kind <;> rfl
    rw [place?_of_closed opened]
    simp only [openPou, opened, place?_settle_none, place?_setScopes, fresh]
    split <;> rfl
  | some scopes =>
    rw [bind_place? opened, scopes.follow_pou]
    simp [openPou, opened, Problem.isStructural]

theorem place?_openMember (state : State) {boundary : Boundary} {member : Member}
    (opens : (∃ header method, boundary = .method header ∧ member = .method method) ∨
      ∃ header property, boundary = .property header ∧ member = .property property)
    {problems : List Diagnostic} (minor : orderly problems = true) (start : Position) :
    (settle (state.openMember member problems) start).place? =
      state.place?.bind (·.follow boundary) := by
  cases opened : state.current with
  | none =>
    rw [place?_of_closed opened]
    simp only [openMember, opened, place?_settle_some, Problem.isStructural, if_true]
    rcases opens with ⟨_, _, rfl, rfl⟩ | ⟨_, _, rfl, rfl⟩ <;> split <;> rfl
  | some scopes =>
    rw [bind_place? opened, scopes.follow_member opens]
    obtain ⟨pou, varSection, builder, copiedLine⟩ := scopes
    simp only [openMember, opened]
    rcases pou with ⟨block, _ | member⟩ | program | function
    · cases varSection <;> simp [place?_setScopes, minor]
    all_goals simp [Problem.isStructural]

theorem place?_openSection (state : State) (header : SectionHeader) (pos start : Position) :
    (settle (state.openSection header pos) start).place? =
      state.place?.bind (·.follow (.varSection header)) := by
  cases opened : state.current with
  | none =>
    rw [place?_of_closed opened]
    simp only [openSection, opened, place?_settle_some, Problem.isStructural, if_true]
    split <;> rfl
  | some scopes =>
    rw [bind_place? opened, scopes.follow_varSection header ⟨header, pos⟩]
    simp only [openSection, opened]
    cases inSection : scopes.varSection <;> simp [place?_setScopes]

theorem place?_boundary (state : State) (boundary : Boundary) (pos start : Position) :
    (settle (state.boundary pos boundary) start).place? =
      state.place?.bind (·.follow boundary) := by
  cases boundary with
  | closing word => exact state.place?_closing word start
  | pou header => exact state.place?_openPou header pos start
  | method header =>
    refine state.place?_openMember (.inl ⟨header, _, rfl, rfl⟩) ?_ start
    -- The parameters can only be invalid.
    refine List.all_eq_true.mpr fun diagnostic member => ?_
    obtain ⟨text, rfl⟩ := MethodHeader.mem_invalidParameters member
    rfl
  | property header =>
    exact state.place?_openMember (.inr ⟨header, _, rfl, rfl⟩) rfl start
  | varSection header => exact state.place?_openSection header pos start

theorem orderly_content (state : State) (text : List Char) (pos : Position) (line : SourceLine)
    (comment : Option String) (start : Position) :
    orderly (settle (state.content text pos line comment) start).document.diagnostics =
      orderly state.document.diagnostics := by
  cases opened : state.current with
  | none => simp [content, opened, settle]
  | some scopes =>
    simp only [content, opened]
    split
    · rename_i varSection _ _
      simp only [declare]
      split
      · simp [settle]
      split
      · simp [settle, Problem.isStructural]
      · simp [settle, setScopes]
    · simp [settle, setScopes]
    · obtain ⟨reported, failed⟩ :=
        scopes.builder.feed_isStructural scopes.pou.body.statements text pos
      simp only [statement]
      split
      · rename_i problem result
        simp [settle, setScopes, reported, failed problem result]
      · simp [settle, setScopes, reported]
      · simp [settle, setScopes, reported]

theorem place?_content (state : State) (step : Step) (read : step.boundary? = none) :
    (settle (state.content step.text step.pos step.line step.comment) step.start).place? =
      state.place? := by
  cases opened : state.current with
  | none => simp [content, opened]
  | some scopes =>
    obtain ⟨-, next, current, change⟩ := content_of_open opened step step.comment
    have orderly := state.orderly_content step.text step.pos step.line step.comment step.start
    rw [place?_of_open opened, ← change.place read, ← orderly]
    exact place?_of_open current

theorem place?_step (state : State) (step : Step) :
    (state.step step).place? =
      match step.boundary? with
      | some boundary => state.place?.bind (·.follow boundary)
      | none => state.place? := by
  -- Only a boundary moves the place. It is lost for good where the grammar has no way on.
  cases read : step.boundary? with
  | some boundary =>
    rw [state.step_of_boundary read, ← place?_dropPending state]
    exact place?_boundary _ boundary step.pos step.start
  | none =>
    by_cases blank : step.text = []
    · rw [state.step_of_blank blank]
    · rw [state.step_of_content blank read]
      exact state.place?_content step read

theorem place?_run (state : State) (steps : List Step) :
    (state.run steps).place? =
      state.place?.bind ((steps.filterMap Step.boundary?).foldlM Place.follow ·) := by
  induction steps generalizing state with
  | nil => simp
  | cons step steps ih =>
    rw [run_cons, ih, place?_step]
    cases read : step.boundary? with
    | none => simp [read]
    | some boundary => simp [read, Option.bind_assoc]

theorem orderly_finish (state : State) :
    orderly state.finish.diagnostics = true ↔ state.place? = some .outside := by
  cases opened : state.current with
  | none => simp [finish, opened, place?_of_closed opened]
  | some scopes =>
    have inside : scopes.place ≠ .outside := by
      simp only [Scopes.place]
      split <;> simp
    simp [finish, opened, place?_of_open opened, inside, Problem.isStructural]

end State

theorem structural_iff_mem_document (source : String) :
    (∀ diagnostic ∈ (parse source).diagnostics, diagnostic.problem.isStructural = false) ↔
      boundaries source ∈ DocumentGrammar.document := by
  obtain ⟨unterminated, isComment, result⟩ := parse_eq_run source
  have minor : orderly unterminated = true := by
    simp only [orderly, List.all_eq_true]
    intro diagnostic member
    rw [isComment diagnostic member]
    rfl
  have start : State.place? {} = some .outside := rfl
  calc (∀ diagnostic ∈ (parse source).diagnostics, diagnostic.problem.isStructural = false)
      ↔ orderly (parse source).diagnostics = true := by simp [orderly]
    _ ↔ orderly (State.run {} (steps source)).finish.diagnostics = true := by
        simp [result, minor]
    _ ↔ (State.run {} (steps source)).place? = some .outside := State.orderly_finish _
    _ ↔ (boundaries source).foldlM Place.follow .outside = some .outside := by
        rw [State.place?_run, start, Option.bind_some, boundaries]
    _ ↔ boundaries source ∈ DocumentGrammar.document := (Place.mem_rest_iff .outside _).symm

end StructuredText
