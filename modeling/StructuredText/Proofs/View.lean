import Mathlib.Logic.Function.Basic
import StructuredText.Proofs.Relabeling

set_option autoImplicit false

namespace StructuredText

structure View where
  line : Nat → Nat
  column : Nat → Nat
  keepsComments : Bool
  keepsCopies : Bool
  -- A line is copied once, which is known by its number.
  apart : keepsCopies = true → Function.Injective line

namespace View

def comment (v : View) (comment : Option String) : Option String :=
  if v.keepsComments then comment else none

def copy (v : View) (text : String) : String :=
  if v.keepsCopies then text else ""

@[simp] theorem comment_none (v : View) : v.comment none = none := by
  simp [comment]

@[simp] theorem copy_empty (v : View) : v.copy "" = "" := by
  simp [copy]

theorem copy_append (v : View) (before after : String) :
    v.copy (before ++ after) = v.copy before ++ v.copy after := by
  by_cases keeps : v.keepsCopies = true
  · simp [copy, keeps]
  · simp [copy, keeps]

def full : View :=
  ⟨id, id, true, true, fun _ => Function.injective_id⟩

def shift (count : Nat) : View :=
  ⟨(· + count), id, true, true, fun _ _ _ => Nat.add_right_cancel⟩

def unplaced : View :=
  ⟨fun _ => 0, fun _ => 0, true, false, by simp⟩

def uncommented : View :=
  ⟨id, id, false, true, fun _ => Function.injective_id⟩

def byLine : View :=
  ⟨id, fun _ => 0, false, false, by simp⟩

end View

def Position.viewed (v : View) (pos : Position) : Position :=
  ⟨v.line pos.line, v.column pos.column⟩

def Diagnostic.viewed (v : View) (diagnostic : Diagnostic) : Diagnostic :=
  ⟨diagnostic.problem, v.line diagnostic.line, diagnostic.column.map v.column⟩

@[simp] theorem Diagnostic.viewed_at (v : View) (problem : Problem) (pos : Position) :
    (problem.at pos).viewed v = problem.at (pos.viewed v) := rfl

mutual

def Statement.viewed (v : View) : Statement → Statement
  | .assignment target expression line => .assignment target expression (v.line line)
  | .conditional node => .conditional (node.viewed v)

def Conditional.viewed (v : View) : Conditional → Conditional
  | ⟨condition, thenBranch, elsifBranches, elseBranch, line⟩ =>
    { condition
      thenBranch := viewedStatements v thenBranch
      elsifBranches := viewedElsifs v elsifBranches
      elseBranch :=
        match elseBranch with
        | none => none
        | some statements => some (viewedStatements v statements)
      line := v.line line }

def viewedStatements (v : View) : List Statement → List Statement
  | [] => []
  | statement :: rest => statement.viewed v :: viewedStatements v rest

def viewedElsifs (v : View) : List ElsifBranch → List ElsifBranch
  | [] => []
  | ⟨condition, statements, line⟩ :: rest =>
    ⟨condition, viewedStatements v statements, v.line line⟩ :: viewedElsifs v rest

end

def ElsifBranch.viewed (v : View) (branch : ElsifBranch) : ElsifBranch :=
  ⟨branch.condition, viewedStatements v branch.statements, v.line branch.line⟩

theorem viewedStatements_eq_map (v : View) (statements : List Statement) :
    viewedStatements v statements = statements.map (Statement.viewed v) := by
  induction statements with
  | nil => simp [viewedStatements]
  | cons statement rest ih => simp [viewedStatements, ih]

theorem viewedElsifs_eq_map (v : View) (branches : List ElsifBranch) :
    viewedElsifs v branches = branches.map (ElsifBranch.viewed v) := by
  induction branches with
  | nil => simp [viewedElsifs]
  | cons branch rest ih =>
    obtain ⟨condition, statements, line⟩ := branch
    simp [viewedElsifs, ElsifBranch.viewed, ih]

theorem Conditional.viewed_mk (v : View) (condition : String) (thenBranch : List Statement)
    (elsifs : List ElsifBranch) (otherwise : Option (List Statement)) (line : Nat) :
    Conditional.viewed v ⟨condition, thenBranch, elsifs, otherwise, line⟩ =
      { condition
        thenBranch := viewedStatements v thenBranch
        elsifBranches := elsifs.map (ElsifBranch.viewed v)
        elseBranch := otherwise.map (viewedStatements v)
        line := v.line line } := by
  rw [← viewedElsifs_eq_map]
  cases otherwise <;> simp [Conditional.viewed]

section Full

@[simp] theorem View.copy_full (text : String) : View.full.copy text = text := rfl

@[simp] theorem Position.viewed_full (pos : Position) : pos.viewed .full = pos := rfl

@[simp] theorem Diagnostic.viewed_full : Diagnostic.viewed .full = id := by
  funext ⟨problem, line, column⟩
  cases column <;> rfl

mutual

theorem Statement.viewed_full : (statement : Statement) → statement.viewed .full = statement
  | .assignment _ _ _ => by simp [Statement.viewed, View.full]
  | .conditional node => by rw [Statement.viewed, node.viewed_full]

theorem Conditional.viewed_full : (node : Conditional) → node.viewed .full = node
  | ⟨_, thenBranch, elsifs, none, _⟩ => by
    rw [Conditional.viewed, viewedStatements_full thenBranch, viewedElsifs_full elsifs]
    rfl
  | ⟨_, thenBranch, elsifs, some otherwise, _⟩ => by
    rw [Conditional.viewed, viewedStatements_full thenBranch, viewedElsifs_full elsifs,
      viewedStatements_full otherwise]
    rfl

theorem viewedStatements_full :
    (statements : List Statement) → viewedStatements .full statements = statements
  | [] => by simp [viewedStatements]
  | statement :: rest => by
    rw [viewedStatements, statement.viewed_full, viewedStatements_full rest]

theorem viewedElsifs_full : (branches : List ElsifBranch) → viewedElsifs .full branches = branches
  | [] => by simp [viewedElsifs]
  | ⟨_, statements, _⟩ :: rest => by
    rw [viewedElsifs, viewedStatements_full statements, viewedElsifs_full rest]
    rfl

end

end Full

def View.relabeling (v : View) : Relabeling where
  text := id
  line := v.line
  statement := Statement.viewed v
  conditional := Conditional.viewed v
  elsif := ElsifBranch.viewed v
  statements := viewedStatements v
  text_eq_empty _ := Iff.rfl
  assignment_mk _ _ _ := by rw [Statement.viewed, id, id]
  statement_conditional _ := by rw [Statement.viewed]
  conditional_mk := Conditional.viewed_mk v
  elsif_mk _ _ _ := rfl
  statements_eq_map := viewedStatements_eq_map v

def Frame.viewed (v : View) (frame : Frame) : Frame :=
  { frame with pos := frame.pos.viewed v }

def Pending.viewed (v : View) (pending : Pending) : Pending :=
  { pending with pos := pending.pos.viewed v }

@[simp] theorem Pending.viewed_unterminated (v : View) (pending : Pending) :
    pending.unterminated.viewed v = (pending.viewed v).unterminated := rfl

namespace Builder

def viewed (v : View) (builder : Builder) : Builder where
  frames := builder.frames.map (Frame.viewed v)
  blocks := builder.blocks
  pending := builder.pending.map (Pending.viewed v)

def viewedResult {ρ : Type} (v : View) (result : Builder × List Statement × ρ) :
    Builder × List Statement × ρ :=
  (result.1.viewed v, viewedStatements v result.2.1, result.2.2)

def Outcome.viewed (v : View) (outcome : Outcome) : Outcome where
  builder := outcome.builder.viewed v
  root := viewedStatements v outcome.root
  result := outcome.result
  reported := outcome.reported.map (Diagnostic.viewed v)

@[simp] theorem viewed_full (builder : Builder) : builder.viewed .full = builder := by
  obtain ⟨frames, blocks, pending⟩ := builder
  have sameFrames : Frame.viewed .full = id := funext fun _ => rfl
  have samePending : Pending.viewed .full = id := funext fun _ => rfl
  simp [viewed, sameFrames, samePending]

variable {v : View} (builder : Builder) (root : List Statement) (pos : Position)

@[simp] theorem path_viewed : (builder.viewed v).path = builder.path := by
  simp [path, viewed, Frame.viewed, Function.comp_def]

theorem getLast?_frames_viewed :
    (builder.viewed v).frames.getLast? = builder.frames.getLast?.map (Frame.viewed v) :=
  List.getLast?_map

theorem setBranch_viewed (branch : Branch) :
    (builder.viewed v).setBranch branch = (builder.setBranch branch).viewed v := by
  simp only [setBranch, getLast?_frames_viewed]
  cases builder.frames.getLast? <;> simp [viewed, Frame.viewed, List.map_dropLast]

section Relabeling

variable (m : Relabeling)

def relabeledResult {ρ : Type} (v : View) (result : Builder × List Statement × ρ) :
    Builder × List Statement × ρ :=
  (result.1.viewed v, m.statements result.2.1, result.2.2)

theorem append_relabeled (statement : Statement) :
    (builder.viewed v).append (m.statement statement) (m.statements root) =
      relabeledResult m v (builder.append statement root) := by
  let push (statement : Statement) (statements : List Statement) :=
    some (statements ++ [statement], statements.length)
  have pushes (statements : List Statement) :
      push (m.statement statement) (m.statements statements) =
        putBack m.statements (push statement statements) := by
    simp [push, putBack]
  have found := Relabeling.modifyAt? pushes builder.path root
  simp only [append, path_viewed]
  rw [found]
  cases Statement.modifyAt? (push statement) builder.path root with
  | some written => rfl
  | none => simp [putBack, relabeledResult, viewed]

variable {m}

theorem modifyTop?_relabeled {ρ : Type} {change changed : Conditional → Conditional × ρ}
    (commutes : ∀ node,
      changed (m.conditional node) = (m.conditional (change node).1, (change node).2)) :
    (builder.viewed v).modifyTop? changed (m.statements root) =
      putBack m.statements (builder.modifyTop? change root) := by
  simp only [modifyTop?, getLast?_frames_viewed, path_viewed]
  cases builder.frames.getLast? with
  | none => rfl
  | some top =>
    refine Relabeling.modifyAt? ?_ builder.path.dropLast root
    refine Relabeling.modifyNth? ?_ top.index
    refine Relabeling.modifyConditional? ?_
    intro node
    rw [commutes]
    rfl

theorem openBranch_relabeled {change changed : Conditional → Conditional × Branch}
    (commutes : ∀ node,
      changed (m.conditional node) = (m.conditional (change node).1, (change node).2))
    (keyword : String) (afterElse : Problem) (problem : Option Problem) :
    (builder.viewed v).openBranch (m.statements root) keyword afterElse changed problem =
      relabeledResult m v (builder.openBranch root keyword afterElse change problem) := by
  have found := builder.modifyTop?_relabeled (v := v) root commutes
  simp only [openBranch, getLast?_frames_viewed, found]
  cases builder.frames.getLast? with
  | none => rfl
  | some top =>
    by_cases late : top.branch = .elseBranch
    · simp [Frame.viewed, late, relabeledResult]
    · cases builder.modifyTop? change root with
      | none => simp [Frame.viewed, late, relabeledResult, putBack]
      | some written =>
        simp [Frame.viewed, late, relabeledResult, putBack, setBranch_viewed]

theorem conditional_relabeled (word : ConditionalWord)
    (sameLine : (pos.viewed v).line = m.line pos.line) :
    (builder.viewed v).conditional (m.statements root) (pos.viewed v) (m.word word) =
      relabeledResult m v (builder.conditional root pos word) := by
  cases word with
  | ifThen condition =>
    have node : Statement.conditional ⟨m.text condition, [], [], none, (pos.viewed v).line⟩ =
        m.statement (.conditional ⟨condition, [], [], none, pos.line⟩) := by
      simp [m.statement_conditional, m.conditional_mk, sameLine]
    simp only [Relabeling.word, conditional, node, append_relabeled, m.missingCondition?]
    simp [relabeledResult, viewed, Frame.viewed]
  | elsif condition =>
    simp only [Relabeling.word, conditional, m.missingCondition?]
    refine builder.openBranch_relabeled root ?_ _ _ _
    rintro ⟨outer, thenBranch, elsifs, otherwise, line⟩
    simp [Conditional.addElsif, m.conditional_mk, m.elsif_mk, sameLine]
  | otherwise =>
    refine builder.openBranch_relabeled root ?_ _ _ _
    rintro ⟨outer, thenBranch, elsifs, otherwise, line⟩
    simp [Conditional.addElse, m.conditional_mk]
  | endIf =>
    by_cases noneOpen : builder.frames = []
    · simp [Relabeling.word, conditional, noneOpen, relabeledResult, viewed]
    · simp [Relabeling.word, conditional, noneOpen, relabeledResult, viewed, List.map_dropLast]

end Relabeling

theorem append_viewed (statement : Statement) :
    (builder.viewed v).append (statement.viewed v) (viewedStatements v root) =
      viewedResult v (builder.append statement root) :=
  builder.append_relabeled root v.relabeling statement

theorem conditional_viewed (word : ConditionalWord) :
    (builder.viewed v).conditional (viewedStatements v root) (pos.viewed v) word =
      viewedResult v (builder.conditional root pos word) := by
  have sameWord : v.relabeling.word word = word := by
    cases word <;> rfl
  have written := builder.conditional_relabeled root pos (m := v.relabeling) word rfl
  rwa [sameWord] at written

theorem belongsToBlock_viewed (word : ConditionalWord) :
    (builder.viewed v).belongsToBlock word = builder.belongsToBlock word := by
  cases word <;> simp [belongsToBlock, viewed]

theorem assign_viewed (text : List Char) (assignment : Assignment) :
    (builder.viewed v).assign (viewedStatements v root) text (pos.viewed v) assignment =
      (builder.assign root text pos assignment).viewed v := by
  let statement : Statement := .assignment (String.ofList assignment.target)
    (String.ofList assignment.expression) pos.line
  have written := builder.append_viewed (v := v) root statement
  by_cases waits : (!assignment.terminated && expectsMore assignment.expression) = true
  · simp [assign, waits, Outcome.viewed, viewed, Pending.viewed]
  · simp only [statement, Statement.viewed] at written
    simp only [assign, waits, Position.viewed, written]
    rfl

theorem build_viewed (text : List Char) (continued : Bool) :
    (builder.viewed v).build (viewedStatements v root) text (pos.viewed v) continued =
      (builder.build root text pos continued).viewed v := by
  simp only [build]
  cases block : (if continued then none else BlockWord.read? text) with
  | some word => cases word <;> simp [Outcome.viewed, viewed]
  | none =>
    cases isWord : ConditionalWord.read? text with
    | some word =>
      simp only [belongsToBlock_viewed, conditional_viewed]
      cases inBlock : builder.belongsToBlock word with
      | true => rfl
      | false =>
        obtain ⟨next, written, problem⟩ := builder.conditional root pos word
        cases problem <;> rfl
    | none =>
      cases isAssignment : Assignment.read? text with
      | some assignment => exact builder.assign_viewed root pos text assignment
      | none =>
        simp only
        split
        · split <;> rfl
        · split <;> rfl

theorem feed_viewed (text : List Char) :
    (builder.viewed v).feed (viewedStatements v root) text (pos.viewed v) =
      (builder.feed root text pos).viewed v := by
  obtain ⟨frames, blocks, pending⟩ := builder
  cases pending with
  | none => exact build_viewed _ root pos text false
  | some pending =>
    let idle : Builder := ⟨frames, blocks, none⟩
    by_cases interrupts : (ConditionalWord.read? text).isSome = true
    · have built := idle.build_viewed (v := v) root pos text false
      simp only [feed, viewed, Option.map_some, interrupts, if_true]
      simp only [idle, viewed, Option.map_none] at built
      rw [built]
      rfl
    · have built := idle.build_viewed (v := v) root pending.pos (pending.text ++ ' ' :: text) true
      simp only [idle, viewed, Option.map_none] at built
      simp only [feed, viewed, Option.map_some, interrupts, Pending.viewed, built]
      generalize build ⟨frames, blocks, none⟩ root (pending.text ++ ' ' :: text) pending.pos true =
        outcome
      obtain ⟨next, written, result, reported⟩ := outcome
      cases result <;> rfl

theorem dropPending_viewed :
    (builder.viewed v).dropPending =
      (builder.dropPending.1.viewed v, builder.dropPending.2.map (Diagnostic.viewed v)) := by
  obtain ⟨frames, blocks, pending⟩ := builder
  cases pending <;> rfl

theorem close_viewed :
    (builder.viewed v).close = builder.close.map (Diagnostic.viewed v) := by
  obtain ⟨frames, blocks, pending⟩ := builder
  cases pending <;> cases frames <;> rfl

end Builder

end StructuredText
