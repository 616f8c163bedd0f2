import StructuredText.Document.Parse
import StructuredText.Proofs.CodeReading
import StructuredText.Proofs.OpenConstruct
import StructuredText.Proofs.Reading
import StructuredText.Proofs.Rewriting

set_option autoImplicit false

namespace StructuredText

mutual

def Statement.IsPlain : Statement → Prop
  | .assignment target expression _ => PlainTarget target.toList ∧ PlainText expression.toList
  | .conditional node => node.IsPlain

def Conditional.IsPlain : Conditional → Prop
  | ⟨condition, thenBranch, elsifBranches, elseBranch, _⟩ =>
    PlainText condition.toList ∧ ArePlain thenBranch ∧ ElsifsArePlain elsifBranches ∧
      match elseBranch with
      | none => True
      | some statements => ArePlain statements

def ArePlain : List Statement → Prop
  | [] => True
  | statement :: rest => statement.IsPlain ∧ ArePlain rest

def ElsifsArePlain : List ElsifBranch → Prop
  | [] => True
  | ⟨condition, statements, _⟩ :: rest =>
    PlainText condition.toList ∧ ArePlain statements ∧ ElsifsArePlain rest

end

mutual

theorem Statement.forall_openLines : (statement : Statement) →
    ((∀ code ∈ statement.openLines [], code.IsPlain) ↔ statement.IsPlain)
  | .assignment .. => by simp [Statement.openLines, Statement.IsPlain]
  | .conditional node => by
    simpa [Statement.openLines, Statement.IsPlain] using node.forall_openLines

theorem Conditional.forall_openLines : (node : Conditional) →
    ((∀ code ∈ node.openLines [], code.IsPlain) ↔ node.IsPlain)
  | ⟨_, thenBranch, elsifBranches, none, _⟩ => by
    simp [Conditional.openLines, Conditional.IsPlain, or_imp, forall_and,
      forall_openLines thenBranch, forall_openElsifLines elsifBranches]
  | ⟨_, thenBranch, elsifBranches, some statements, _⟩ => by
    simp [Conditional.openLines, Conditional.IsPlain, or_imp, forall_and,
      forall_openLines thenBranch, forall_openElsifLines elsifBranches,
      forall_openLines statements]

theorem forall_openLines : (statements : List Statement) →
    ((∀ code ∈ openLines [] statements, code.IsPlain) ↔ ArePlain statements)
  | [] => by simp [openLines, ArePlain]
  | statement :: rest => by
    simp [openLines, ArePlain, or_imp, forall_and, statement.forall_openLines,
      forall_openLines rest]

theorem forall_openElsifLines : (elsifs : List ElsifBranch) →
    ((∀ code ∈ openElsifLines [] elsifs, code.IsPlain) ↔ ElsifsArePlain elsifs)
  | [] => by simp [openElsifLines, ElsifsArePlain]
  | ⟨_, statements, _⟩ :: rest => by
    simp [openElsifLines, ElsifsArePlain, or_imp, forall_and,
      forall_openLines statements, forall_openElsifLines rest]

end

structure Holds (raw text : List Char) : Prop where
  settled : Settled raw
  visible : trim raw ≠ []
  fragment : (fragments raw).map Fragment.text = [text]
  noPragma : withoutPragmas text = text

theorem Progress.line_of_holds {progress : Progress} {raw text : List Char}
    (holds : Holds raw text) (outside : progress.comment = none) :
    ∃ step : Step, step.text = text ∧ step.pos.line = progress.count + 1 ∧
      progress.line raw = ⟨progress.count + 1, none, progress.state.step step⟩ := by
  obtain ⟨fragment, shape, isText⟩ := List.map_eq_singleton_iff.mp holds.fragment
  let line : SourceLine := ⟨raw, ⟨raw, []⟩, progress.count + 1⟩
  refine ⟨⟨line, fragment, none⟩, ?_, rfl, ?_⟩
  · rw [Step.text, isText, holds.noPragma]
  · have code : StrippedLine.isEmpty ⟨raw, []⟩ = false := by
      simpa [StrippedLine.isEmpty] using holds.visible
    simp only [Progress.line, outside, holds.settled.uncommented.strip, code, Bool.false_eq_true,
      if_false, State.line, State.fragments_eq_run, shape]
    rfl

theorem withoutPragmas_of_head {s : List Char} (first : s.head? ≠ some '\x7b') :
    withoutPragmas s = s := by
  unfold withoutPragmas
  split
  · exact absurd rfl first
  · rfl

theorem Bare.withoutPragmas {s : List Char} (bare : Bare s) : withoutPragmas s = s := by
  refine withoutPragmas_of_head fun begins => ?_
  have closes := (bare.characters '\x7b' (List.mem_of_mem_head? begins)).2
  cases closes

theorem trim_ne_nil {s : List Char} {c : Char} (member : c ∈ s) (visible : isBlank c = false) :
    trim s ≠ [] := by
  intro empty
  obtain ⟨lead, tail, split, leading, trailing⟩ := trim_append s
  rw [empty, List.append_nil] at split
  rw [split] at member
  have blankHere : isBlank c = true := (List.mem_append.mp member).elim (leading c) (trailing c)
  rw [visible] at blankHere
  cases blankHere

theorem CodeLine.last_text (code : CodeLine) :
    ∃ c, code.text.toList.getLast? = some c ∧ isBlank c = false := by
  cases code with
  | assignment target expression =>
    rw [toList_assignment, assignmentLine_eq, List.getLast?_concat]
    exact ⟨';', rfl, by decide⟩
  | ifThen condition =>
    rw [toList_ifThen, last_conditionLine]
    exact ⟨'N', rfl, by decide⟩
  | elsif condition =>
    rw [toList_elsif, last_conditionLine]
    exact ⟨'N', rfl, by decide⟩
  | otherwise => exact ⟨'E', by decide, by decide⟩
  | endIf => exact ⟨';', by decide, by decide⟩

section Indent

variable {pad s : List Char} (indent : ∀ c ∈ pad, c = ' ' ∨ c = '\t')

include indent

theorem blank_of_indent : ∀ c ∈ pad, isBlank c = true := by
  intro c member
  rcases indent c member with rfl | rfl <;> decide

theorem apart_of_indent (raw : List Char) :
    ∀ c ∈ pad.getLast?, ∀ d ∈ raw.head?, Apart c d := by
  intro c last d _
  rcases indent c (List.mem_of_getLast? last) with rfl | rfl <;> simp [Apart]

theorem settled_of_indent : Settled pad := by
  refine settled_of_all (List.all_eq_true.mpr fun c member => ?_)
  rcases indent c member with rfl | rfl <;> decide

theorem Settled.indent_append (settled : Settled s) : Settled (pad ++ s) :=
  (settled_of_indent indent).append settled (apart_of_indent indent s)

end Indent

theorem CodeLine.withoutPragmas_text {code : CodeLine} (inline : code.IsInline) :
    withoutPragmas code.text.toList = code.text.toList := by
  refine withoutPragmas_of_head ?_
  cases code with
  | assignment target expression =>
    rw [toList_assignment, assignmentLine, List.head?_append_of_ne_nil _ inline.1.nonempty]
    intro begins
    have closes := (inline.1.bare.characters _ (List.mem_of_mem_head? begins)).2
    cases closes
  | ifThen condition =>
    rw [toList_ifThen]
    simp [conditionLine]
  | elsif condition =>
    rw [toList_elsif]
    simp [conditionLine]
  | otherwise | endIf => decide

theorem CodeLine.holds {code : CodeLine} (inline : code.IsInline) {pad : List Char}
    (indent : ∀ c ∈ pad, c = ' ' ∨ c = '\t') :
    Holds (pad ++ code.text.toList) code.text.toList := by
  obtain ⟨c, last, visible⟩ := code.last_text
  refine ⟨(settled_text inline).indent_append indent, ?_, ?_, withoutPragmas_text inline⟩
  · exact trim_ne_nil (List.mem_append_right pad (List.mem_of_getLast? last)) visible
  · rw [map_text_fragments_blank_append (blank_of_indent indent), fragments_text inline]

structure Progress.Holding (progress : Progress) (scopes : Scopes) : Prop where
  comment : progress.comment = none
  state : progress.state = { current := some scopes }

structure Progress.Composing (progress : Progress) (pou : OpenPou) (cursor : Cursor)
    (builder : Builder) : Prop where
  holding : progress.Holding
    { pou := pou.setBody { pou.body with statements := cursor.root }, builder }
  tracks : builder.Tracks cursor.root cursor
  pending : builder.pending = none
  blocks : builder.blocks = []

theorem Progress.Composing.line {progress : Progress} {pou : OpenPou} {cursor after : Cursor}
    {builder : Builder} (composing : progress.Composing pou cursor builder) {code : CodeLine}
    (inline : code.IsInline) {pad : List Char} (indent : ∀ c ∈ pad, c = ' ' ∨ c = '\t')
    (written : cursor.write (progress.count + 1) code = some after) :
    ∃ next, (progress.line (pad ++ code.text.toList)).Composing pou after next ∧
      (progress.line (pad ++ code.text.toList)).count = progress.count + 1 := by
  obtain ⟨step, text, number, result⟩ :=
    Progress.line_of_holds (CodeLine.holds inline indent) composing.holding.comment
  rw [← number] at written
  obtain ⟨next, fed, tracks, pending, blocks⟩ :=
    composing.tracks.feed_inline composing.pending composing.blocks inline written
  have noBoundary : step.boundary? = none := by
    rw [Step.boundary?, text]
    exact CodeLine.boundary_text inline
  have noAccessor : Accessor.read? step.text = none := by
    rw [text]
    exact code.accessor_text
  have nonempty : step.text ≠ [] := by
    obtain ⟨c, last, -⟩ := code.last_text
    intro blank
    rw [← text, blank] at last
    cases last
  refine ⟨next, ?_, by rw [result]⟩
  rw [result]
  refine ⟨⟨rfl, ?_⟩, tracks, pending, blocks⟩
  rw [State.step_of_content _ nonempty noBoundary, composing.holding.state,
    State.content_of_statement rfl rfl noAccessor]
  simp only [State.statement, OpenPou.body_setBody, text, fed, OpenPou.setBody_setBody]
  rfl

theorem mem_padding {depth : Nat} {indent : String} {c : Char}
    (member : c ∈ (padding depth indent).toList) : c ∈ indent.toList := by
  simp only [padding, String.toList_join, List.mem_flatMap] at member
  obtain ⟨copy, isCopy, member⟩ := member
  rw [List.eq_of_mem_replicate isCopy] at member
  exact member

def paddedLine (indent : String) (entry : Nat × CodeLine) : List Char :=
  (padding entry.1 indent).toList ++ entry.2.text.toList

theorem Progress.Composing.lines {progress : Progress} {pou : OpenPou} {cursor after : Cursor}
    {builder : Builder} (composing : progress.Composing pou cursor builder) {indent : String}
    (spaces : ∀ c ∈ indent.toList, c = ' ' ∨ c = '\t') {entries : List (Nat × CodeLine)}
    (inline : ∀ code ∈ entries.map Prod.snd, code.IsInline)
    (written : cursor.writeFrom (progress.count + 1) (entries.map Prod.snd) = some after) :
    ∃ next, ((entries.map (paddedLine indent)).foldl Progress.line progress).Composing pou after
      next := by
  induction entries generalizing progress cursor builder with
  | nil =>
    cases written
    exact ⟨builder, composing⟩
  | cons entry entries ih =>
    obtain ⟨depth, code⟩ := entry
    obtain ⟨middle, first, rest⟩ := Option.bind_eq_some_iff.mp written
    have here : code.IsInline := inline code List.mem_cons_self
    have later : ∀ code ∈ entries.map Prod.snd, code.IsInline :=
      fun code member => inline code (List.mem_cons_of_mem _ member)
    obtain ⟨next, wrote, count⟩ :=
      composing.line here (fun c member => spaces c (mem_padding member)) first
    rw [List.map_cons, List.foldl_cons]
    -- Each line is written where the cursor stands behind the lines before it.
    refine ih wrote later ?_
    rw [paddedLine, count]
    exact rest

theorem Builder.Tracks.idle {builder : Builder} {root statements : List Statement}
    (tracks : builder.Tracks root ⟨[], statements⟩) (pending : builder.pending = none)
    (blocks : builder.blocks = []) : builder = {} := by
  have frames : builder.frames = [] := by simpa using tracks.frames
  cases builder
  simp_all

theorem lines_unlines {rendered : List String}
    (inLine : ∀ line ∈ rendered, '\n' ∉ line.toList ∧ line.toList.getLast? ≠ some '\r')
    (rest : List Char) :
    lines ((unlines rendered).toList ++ rest) = rendered.map String.toList ++ lines rest := by
  induction rendered with
  | nil => simp [unlines, String.join]
  | cons line rendered ih =>
    have split : (unlines (line :: rendered)).toList ++ rest =
        line.toList ++ '\n' :: ((unlines rendered).toList ++ rest) := by
      simp [unlines, String.toList_join]
    obtain ⟨noBreak, noReturn⟩ := inLine line List.mem_cons_self
    rw [split, lines_append noBreak noReturn,
      ih fun other member => inLine other (List.mem_cons_of_mem _ member)]
    rfl

theorem holds_constant {text : String}
    (safe : text.toList.all isBareChar = true)
    (visible : trim text.toList ≠ [])
    (fragment : (fragments text.toList).map Fragment.text = [text.toList]) :
    Holds text.toList text.toList :=
  ⟨settled_of_all safe, visible, fragment, (bare_of_all safe).withoutPragmas⟩

theorem Progress.composing_program :
    ∃ pos builder, (Progress.line {} "PROGRAM P".toList).Composing
      (.program { name := "P", pos }) {} builder := by
  have holds : Holds "PROGRAM P".toList "PROGRAM P".toList :=
    holds_constant (by decide) (by decide) (by decide +kernel)
  obtain ⟨step, text, -, result⟩ := @Progress.line_of_holds {} _ _ holds rfl
  have read : step.boundary? = some (.pou { kind := .program, name := "P" }) := by
    rw [Step.boundary?, text]
    decide
  refine ⟨step.pos, {}, ?_⟩
  rw [result, State.step_of_boundary _ read]
  exact ⟨⟨rfl, rfl⟩, .fresh [], rfl, rfl⟩

theorem Progress.Composing.finish {progress : Progress} {program : Program}
    {statements : List Statement} {builder : Builder}
    (composing : progress.Composing (.program program) ⟨[], statements⟩ builder) :
    (progress.line "END_PROGRAM".toList).finish =
      { programs := [{ program with body := { program.body with statements } }] } := by
  have holds : Holds "END_PROGRAM".toList "END_PROGRAM".toList :=
    holds_constant (by decide) (by decide) (by decide +kernel)
  obtain ⟨step, text, -, result⟩ := Progress.line_of_holds holds composing.holding.comment
  have read : step.boundary? = some (.closing (.pou .program)) := by
    rw [Step.boundary?, text]
    decide
  have idle : builder = {} := composing.tracks.idle composing.pending composing.blocks
  rw [result, State.step_of_boundary _ read, composing.holding.state, idle]
  rfl

theorem CodeLine.inLine {code : CodeLine} (inline : code.IsInline) {pad : List Char}
    (indent : ∀ c ∈ pad, c = ' ' ∨ c = '\t') :
    '\n' ∉ pad ++ code.text.toList ∧ (pad ++ code.text.toList).getLast? ≠ some '\r' := by
  obtain ⟨c, last, visible⟩ := code.last_text
  constructor
  · rw [List.mem_append]
    rintro (inPad | inText)
    · rcases indent _ inPad with space | tab
      · cases space
      · cases tab
    · exact oneLine_text inline inText
  · rw [List.getLast?_append, last]
    rintro isReturn
    cases isReturn
    exact absurd visible (by decide)

def programSource (statements : List Statement) (depth : Nat) (indent : String) : String :=
  "PROGRAM P\n" ++ renderStatements statements depth indent ++ "END_PROGRAM\n"

def AreInline (statements : List Statement) : Prop :=
  ∀ code ∈ openLines [] statements, code.IsInline

instance (statements : List Statement) : Decidable (AreInline statements) :=
  inferInstanceAs (Decidable (∀ code ∈ openLines [] statements, code.IsInline))

theorem ArePlain.inline {statements : List Statement} (plain : ArePlain statements) :
    AreInline statements :=
  fun code member => ((forall_openLines statements).mpr plain code member).inline

theorem isInline_of_mem_statementLines {statements : List Statement}
    (inline : AreInline statements) (depth : Nat) :
    ∀ code ∈ (statementLines depth statements).map Prod.snd, code.IsInline := by
  rw [map_snd_statementLines]
  exact inline

theorem inLine_renderLines {statements : List Statement} (inline : AreInline statements)
    (depth : Nat) {indent : String} (spaces : ∀ c ∈ indent.toList, c = ' ' ∨ c = '\t') :
    ∀ line ∈ renderLines statements depth indent,
      '\n' ∉ line.toList ∧ line.toList.getLast? ≠ some '\r' := by
  intro line member
  obtain ⟨⟨level, code⟩, entry, rfl⟩ := List.mem_map.mp member
  have isInline : code.IsInline := isInline_of_mem_statementLines inline depth code
    (List.mem_map.mpr ⟨(level, code), entry, rfl⟩)
  rw [String.toList_append]
  exact CodeLine.inLine isInline fun c inPadding => spaces c (mem_padding inPadding)

theorem lines_programSource {statements : List Statement} (inline : AreInline statements)
    (depth : Nat) {indent : String} (spaces : ∀ c ∈ indent.toList, c = ' ' ∨ c = '\t') :
    lines (programSource statements depth indent).toList =
      "PROGRAM P".toList :: ((statementLines depth statements).map (paddedLine indent) ++
        ["END_PROGRAM".toList]) := by
  have rendered : (renderLines statements depth indent).map String.toList =
      (statementLines depth statements).map (paddedLine indent) := by
    simp [renderLines, paddedLine]
  have shape : (programSource statements depth indent).toList =
      "PROGRAM P".toList ++ '\n' ::
        ((unlines (renderLines statements depth indent)).toList ++
          ("END_PROGRAM".toList ++ ['\n'])) := by
    simp [programSource, renderStatements]
  rw [shape, lines_append (by decide) (by decide),
    lines_unlines (inLine_renderLines inline depth spaces), rendered,
    lines_append (by decide) (by decide)]
  rfl

theorem parse_programSource (statements : List Statement) (plain : ArePlain statements)
    (depth : Nat) (indent : String) (spaces : ∀ c ∈ indent.toList, c = ' ' ∨ c = '\t') :
    (parse (programSource statements depth indent)).diagnostics = [] ∧
      (parse (programSource statements depth indent)).functionBlocks = [] ∧
      (parse (programSource statements depth indent)).functions = [] ∧
      ∃ program, (parse (programSource statements depth indent)).programs = [program] ∧
        program.body.unsupported = [] ∧
        withoutNumbers program.body.statements = withoutNumbers statements := by
  obtain ⟨pos, builder, start⟩ := Progress.composing_program
  obtain ⟨written, wrote, same⟩ :=
    rewrites statements ((Progress.line {} "PROGRAM P".toList).count + 1) [] []
  rw [← map_snd_statementLines depth, List.nil_append] at wrote
  obtain ⟨next, done⟩ :=
    start.lines spaces (isInline_of_mem_statementLines plain.inline depth) wrote
  have result : parse (programSource statements depth indent) =
      { programs := [{ name := "P", body := { statements := written }, pos }] } := by
    rw [← done.finish, parse, lines_programSource plain.inline depth spaces, List.foldl_cons,
      List.foldl_append]
    rfl
  rw [result]
  exact ⟨rfl, rfl, rfl, _, rfl, rfl, same⟩

def nestedStatements : List Statement :=
  [.conditional
    { condition := "a"
      thenBranch := [.assignment "x" "b" 2]
      elsifBranches := [⟨"b", [.conditional ⟨"a", [], [], some [], 4⟩], 3⟩]
      elseBranch := none
      line := 1 },
    .assignment "x.y[1]" "a" 8]

theorem parse_nestedStatements :
    (parse (programSource nestedStatements 1 " \t")).diagnostics = [] ∧
      (parse (programSource nestedStatements 1 " \t")).functionBlocks = [] ∧
      (parse (programSource nestedStatements 1 " \t")).functions = [] ∧
      ∃ program, (parse (programSource nestedStatements 1 " \t")).programs = [program] ∧
        program.body.unsupported = [] ∧
        withoutNumbers program.body.statements = withoutNumbers nestedStatements := by
  have a : PlainText "a".toList := by decide
  have b : PlainText "b".toList := by decide
  have x : PlainTarget "x".toList := by
    refine ⟨by decide, ?_, by decide⟩
    rw [show Reader.name "x".toList = some [] by decide, Option.map_some,
      Assignment.afterAccesses_of_none (by decide)]
  have accessed : PlainTarget "x.y[1]".toList := by
    have field : Assignment.access ".y[1]".toList = some "[1]".toList := by decide
    have index : Assignment.access "[1]".toList = some [] := by decide
    refine ⟨by decide, ?_, by decide⟩
    rw [show Reader.name "x.y[1]".toList = some ".y[1]".toList by decide, Option.map_some,
      Assignment.afterAccesses_of_some field, Assignment.afterAccesses_of_some index,
      Assignment.afterAccesses_of_none (by decide)]
  have plain : ArePlain nestedStatements := by
    simp only [nestedStatements, ArePlain, Statement.IsPlain, Conditional.IsPlain, ElsifsArePlain,
      a, b, x, accessed, and_true]
  exact parse_programSource nestedStatements plain 1 " \t" (by simp)

end StructuredText
