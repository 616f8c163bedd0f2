import StructuredText.Proofs.Cursor

set_option autoImplicit false

namespace StructuredText

def Frame.mark (frame : Frame) : Turn × Nat :=
  (frame.toTurn, frame.pos.line)

def OpenIf.mark (opened : OpenIf) : Turn × Nat :=
  (opened.turn, opened.line)

structure Builder.Tracks (builder : Builder) (root : List Statement) (cursor : Cursor) : Prop where
  root : root = cursor.root
  frames : builder.frames.map Frame.mark = cursor.ifs.map OpenIf.mark

def ConditionalWord.codeLine : ConditionalWord → CodeLine
  | ifThen condition => .ifThen condition
  | elsif condition => .elsif condition
  | otherwise => .otherwise
  | endIf => .endIf

def ConditionalWord.missing? : ConditionalWord → Option Problem
  | ifThen condition => Builder.missingCondition? "IF" condition
  | elsif condition => Builder.missingCondition? "ELSIF" condition
  | otherwise | endIf => none

def Assignment.codeLine (assignment : Assignment) : CodeLine :=
  .assignment (String.ofList assignment.target) (String.ofList assignment.expression)

def CodeLine.read? (text : List Char) : Option CodeLine :=
  match ConditionalWord.read? text with
  | some word => some word.codeLine
  | none => (Assignment.read? text).map Assignment.codeLine

def Problem.keepsStatement : Problem → Bool
  | missingSemicolon | missingCondition _ => true
  | _ => false

theorem ConditionalWord.keepsStatement_missing? (word : ConditionalWord) {problem : Problem}
    (missing : word.missing? = some problem) : problem.keepsStatement = true := by
  cases word with
  | ifThen condition | elsif condition =>
    simp only [ConditionalWord.missing?, Builder.missingCondition?, Option.ite_none_right_eq_some,
      Option.some.injEq] at missing
    rw [← missing.2]
    rfl
  | otherwise | endIf => cases missing

def Builder.Outcome.isKept (outcome : Builder.Outcome) : Bool :=
  match outcome.result with
  | .ok fed => fed = .statement
  | .error problem => problem.keepsStatement

namespace Builder

section Pending

variable (builder : Builder) (root : List Statement) (pos : Position)

theorem append_pending (statement : Statement) :
    (builder.append statement root).1.pending = builder.pending := by
  simp only [append]
  split <;> rfl

theorem openBranch_pending {keyword : String} {afterElse : Problem}
    {change : Conditional → Conditional × Branch} {missing : Option Problem} :
    (builder.openBranch root keyword afterElse change missing).1.pending = builder.pending := by
  unfold openBranch
  split
  · rfl
  · split
    · rfl
    · split <;> rfl

theorem conditional_pending (word : ConditionalWord) :
    (builder.conditional root pos word).1.pending = builder.pending := by
  cases word with
  | ifThen condition => exact builder.append_pending root _
  | elsif condition => exact builder.openBranch_pending root
  | otherwise => exact builder.openBranch_pending root
  | endIf =>
    simp only [conditional]
    split <;> rfl

end Pending

namespace Tracks

variable {builder : Builder} {root : List Statement} {cursor : Cursor}

theorem fresh (root : List Statement) : Tracks {} root { inner := root } :=
  ⟨rfl, rfl⟩

theorem of_frames {other : Builder} (tracks : builder.Tracks root cursor)
    (same : other.frames = builder.frames) : other.Tracks root cursor :=
  ⟨tracks.root, same ▸ tracks.frames⟩

theorem path (tracks : builder.Tracks root cursor) :
    builder.path = cursor.ifs.map OpenIf.turn := by
  have marks := congrArg (List.map Prod.fst) tracks.frames
  simpa [Builder.path, Frame.mark, OpenIf.mark, Function.comp_def] using marks

theorem concat {outer : List OpenIf} {opened : OpenIf} (tracks : builder.Tracks root cursor)
    (shape : cursor.ifs = outer ++ [opened]) :
    ∃ frames frame, builder.frames = frames ++ [frame] ∧
      frames.map Frame.mark = outer.map OpenIf.mark ∧ frame.mark = opened.mark := by
  have marks := tracks.frames
  rw [shape, List.map_append, List.map_eq_append_iff] at marks
  obtain ⟨frames, last, split, outerMarks, lastMark⟩ := marks
  obtain ⟨frame, rfl, mark⟩ := List.map_eq_singleton_iff.mp lastMark
  exact ⟨frames, frame, split, outerMarks, mark⟩

theorem append_eq (tracks : builder.Tracks root cursor) (statement : Statement) :
    builder.append statement root =
      (builder, fill cursor.ifs (cursor.inner ++ [statement]), cursor.inner.length) := by
  simp only [Builder.append, tracks.path, tracks.root, Cursor.root, modifyAt?_fill]
  rfl

theorem modifyTop?_eq {ρ : Type} {outer : List OpenIf} {opened : OpenIf}
    (tracks : builder.Tracks root cursor) (shape : cursor.ifs = outer ++ [opened])
    (change : Conditional → Conditional × ρ) :
    builder.modifyTop? change root =
      some (fill outer
          (opened.before ++ [.conditional (change (opened.node cursor.inner)).1]),
        (change (opened.node cursor.inner)).2) := by
  obtain ⟨frames, frame, split, -, mark⟩ := tracks.concat shape
  have top : builder.frames.getLast? = some frame := by simp [split]
  have index : frame.index = opened.before.length := congrArg (·.1.index) mark
  rw [modifyTop?, top, Option.bind_some, index, tracks.path, tracks.root, Cursor.root, shape,
    List.map_append, List.map_singleton, List.dropLast_concat, fill_append, fill_cons, fill_nil,
    modifyAt?_fill, OpenIf.close, modifyNth?_length]
  rfl

theorem openBranch_written {outer : List OpenIf} {opened started : OpenIf}
    {change : Conditional → Conditional × Branch} (tracks : builder.Tracks root cursor)
    (shape : cursor.ifs = outer ++ [opened]) (unfinished : opened.branch ≠ .elseBranch)
    (changed : change (opened.node cursor.inner) = (started.node [], started.branch))
    (same : started.before = opened.before ∧ started.line = opened.line)
    (keyword : String) (afterElse : Problem) (problem : Option Problem) :
    ∃ next, builder.openBranch root keyword afterElse change problem =
        (next, fill (outer ++ [started]) [], problem) ∧
      next.Tracks (fill (outer ++ [started]) []) { ifs := outer ++ [started] } ∧
      next.pending = builder.pending ∧ next.blocks = builder.blocks := by
  obtain ⟨frames, frame, split, outerMarks, mark⟩ := tracks.concat shape
  have top : builder.frames.getLast? = some frame := by simp [split]
  have branch : frame.branch = opened.branch := congrArg (·.1.branch) mark
  have index : frame.index = started.before.length := by
    rw [same.1]
    exact congrArg (·.1.index) mark
  have line : frame.pos.line = started.line := by
    rw [same.2]
    exact congrArg Prod.snd mark
  refine ⟨builder.setBranch started.branch, ?_, ⟨rfl, ?_⟩, rfl, rfl⟩
  · simp [openBranch, top, branch, unfinished, tracks.modifyTop?_eq shape, changed, OpenIf.close,
      same.1]
  · simp [setBranch, split, outerMarks, Frame.mark, OpenIf.mark, OpenIf.turn, index, line]

theorem openBranch_refused {start : OpenIf → OpenIf} (tracks : builder.Tracks root cursor)
    (refused : cursor.startBranch start = none) (keyword : String) (afterElse : Problem)
    (change : Conditional → Conditional × Branch) (problem : Option Problem) :
    builder.openBranch root keyword afterElse change problem =
        (builder, root, some (.unexpectedKeyword keyword)) ∨
      builder.openBranch root keyword afterElse change problem =
        (builder, root, some afterElse) := by
  rcases List.eq_nil_or_concat cursor.ifs with none | ⟨outer, opened, shape⟩
  · have noFrames : builder.frames = [] := by
      simpa [none] using tracks.frames
    left
    simp [openBranch, noFrames]
  · rw [List.concat_eq_append] at shape
    obtain ⟨frames, frame, split, -, mark⟩ := tracks.concat shape
    have branch : frame.branch = opened.branch := congrArg (·.1.branch) mark
    have finished : frame.branch = .elseBranch := by
      rw [branch]
      simpa [Cursor.startBranch, shape] using refused
    right
    simp [openBranch, split, finished]

theorem conditional_written {word : ConditionalWord} {pos : Position} {after : Cursor}
    (tracks : builder.Tracks root cursor)
    (written : cursor.write pos.line word.codeLine = some after) :
    ∃ next, builder.conditional root pos word = (next, after.root, word.missing?) ∧
      next.Tracks after.root after ∧ next.pending = builder.pending ∧
      next.blocks.Sublist builder.blocks := by
  cases word with
  | ifThen condition =>
    cases written
    let frame : Frame := { index := cursor.inner.length, branch := .thenBranch, pos }
    refine ⟨{ builder with frames := builder.frames ++ [frame] }, ?_, ⟨rfl, ?_⟩, rfl, .refl _⟩
    · simp only [Builder.conditional, tracks.append_eq]
      simp [Cursor.root, OpenIf.close, OpenIf.node, ConditionalWord.missing?, frame]
    · simp [tracks.frames, Frame.mark, OpenIf.mark, OpenIf.turn, OpenIf.branch, frame]
  | elsif condition =>
    obtain ⟨outer, opened, shape, unfinished, rfl⟩ := Cursor.startBranch_eq_some written
    let started := opened.startElsif cursor.inner condition pos.line
    have added : (opened.node cursor.inner).addElsif condition pos.line =
        (started.node [], started.branch) := by
      rw [OpenIf.node_startElsif cursor.inner [] condition pos.line unfinished]
      rfl
    obtain ⟨next, result, follows, pending, blocks⟩ :=
      tracks.openBranch_written shape unfinished added ⟨rfl, rfl⟩ "ELSIF" .elsifAfterElse
        (missingCondition? "ELSIF" condition)
    exact ⟨next, result, follows, pending, blocks ▸ .refl _⟩
  | otherwise =>
    obtain ⟨outer, opened, shape, unfinished, rfl⟩ := Cursor.startBranch_eq_some written
    let started := opened.startElse cursor.inner
    have added : (opened.node cursor.inner).addElse = (started.node [], started.branch) := by
      rw [OpenIf.node_startElse cursor.inner [] unfinished]
      rfl
    obtain ⟨next, result, follows, pending, blocks⟩ :=
      tracks.openBranch_written shape unfinished added ⟨rfl, rfl⟩ "ELSE" .duplicateElse none
    exact ⟨next, result, follows, pending, blocks ▸ .refl _⟩
  | endIf =>
    obtain ⟨opened, last, rfl⟩ := Option.map_eq_some_iff.mp written
    obtain ⟨outer, shape⟩ := List.getLast?_eq_some_iff.mp last
    -- Closing an IF moves the cursor out of it and leaves the tree alone.
    obtain ⟨frames, frame, split, outerMarks, -⟩ := tracks.concat shape
    have closed : cursor.root =
        Cursor.root ⟨cursor.ifs.dropLast, opened.close cursor.inner⟩ := by
      simp [Cursor.root, shape]
    simp only [Builder.conditional, split, List.append_eq_nil_iff, List.cons_ne_self, and_false,
      if_false, List.dropLast_concat, ← closed, ConditionalWord.missing?, tracks.root]
    refine ⟨_, rfl, ⟨closed, ?_⟩, rfl, List.filter_sublist⟩
    simp [shape, outerMarks]

theorem conditional_refused {word : ConditionalWord} {pos : Position}
    (tracks : builder.Tracks root cursor)
    (refused : cursor.write pos.line word.codeLine = none) :
    ∃ problem, builder.conditional root pos word = (builder, root, some problem) ∧
      problem.keepsStatement = false := by
  cases word with
  | ifThen condition => cases refused
  | elsif condition =>
    rcases tracks.openBranch_refused refused "ELSIF" .elsifAfterElse
      (·.addElsif condition pos.line) (missingCondition? "ELSIF" condition) with result | result
    · exact ⟨_, result, rfl⟩
    · exact ⟨_, result, rfl⟩
  | otherwise =>
    rcases tracks.openBranch_refused refused "ELSE" .duplicateElse Conditional.addElse none with
      result | result
    · exact ⟨_, result, rfl⟩
    · exact ⟨_, result, rfl⟩
  | endIf =>
    have none : cursor.ifs = [] := by
      simpa [ConditionalWord.codeLine, Cursor.write] using refused
    have noFrames : builder.frames = [] := by simpa [none] using tracks.frames
    exact ⟨.unexpectedKeyword "END_IF", by simp [Builder.conditional, noFrames], rfl⟩

theorem assign_written (tracks : builder.Tracks root cursor) (text : List Char) (pos : Position)
    (assignment : Assignment) :
    let outcome := builder.assign root text pos assignment
    (outcome.isKept = true ∧ ∃ after, cursor.write pos.line assignment.codeLine = some after ∧
        outcome.builder.Tracks outcome.root after) ∨
      (outcome.isKept = false ∧ outcome.root = root ∧ outcome.builder.frames = builder.frames) := by
  simp only [assign]
  split
  · right
    exact ⟨rfl, rfl, rfl⟩
  · left
    simp only [tracks.append_eq]
    refine ⟨?_, _, rfl, rfl, tracks.frames⟩
    cases assignment.terminated <;> rfl

theorem build_written (tracks : builder.Tracks root cursor) (text : List Char) (pos : Position)
    (continued : Bool) :
    let outcome := builder.build root text pos continued
    (outcome.isKept = true ∧ ∃ code after, CodeLine.read? text = some code ∧
        cursor.write pos.line code = some after ∧ outcome.builder.Tracks outcome.root after) ∨
      (outcome.isKept = false ∧ outcome.root = root ∧ outcome.builder.frames = builder.frames) := by
  simp only [build]
  cases block : (if continued then none else BlockWord.read? text) with
  | some word => cases word <;> exact .inr ⟨rfl, rfl, rfl⟩
  | none =>
    cases isWord : ConditionalWord.read? text with
    | some word =>
      simp only
      split
      · exact .inr ⟨rfl, rfl, rfl⟩
      have read : CodeLine.read? text = some word.codeLine := by simp [CodeLine.read?, isWord]
      cases written : cursor.write pos.line word.codeLine with
      | none =>
        obtain ⟨problem, result, dropped⟩ := tracks.conditional_refused written
        rw [result]
        exact .inr ⟨dropped, rfl, rfl⟩
      | some after =>
        obtain ⟨next, result, follows, -⟩ := tracks.conditional_written written
        rw [result]
        cases missing : word.missing? with
        | none => exact .inl ⟨rfl, word.codeLine, after, read, written, follows⟩
        | some problem =>
          have kept := word.keepsStatement_missing? missing
          exact .inl ⟨kept, word.codeLine, after, read, written, follows⟩
    | none =>
      cases isAssignment : Assignment.read? text with
      | some assignment =>
        rcases tracks.assign_written text pos assignment with ⟨kept, after, written, follows⟩ | same
        · refine .inl ⟨kept, assignment.codeLine, after, ?_, written, follows⟩
          simp [CodeLine.read?, isWord, isAssignment]
        · exact .inr same
      | none =>
        simp only
        split
        · split <;> exact .inr ⟨rfl, rfl, rfl⟩
        · split <;> exact .inr ⟨rfl, rfl, rfl⟩

end Tracks

theorem build_reported (builder : Builder) (root : List Statement) (text : List Char)
    (pos : Position) (continued : Bool) :
    (builder.build root text pos continued).reported = [] := by
  simp only [build, assign]
  split
  · rfl
  · rfl
  split
  · split
    · rfl
    split <;> rfl
  · split <;> rfl
  · split
    · split <;> rfl
    · split <;> rfl

def offered (builder : Builder) (text : List Char) (pos : Position) : List Char × Position × Bool :=
  match builder.pending with
  | none => (text, pos, false)
  | some pending =>
    if (ConditionalWord.read? text).isSome then (text, pos, false)
    else (pending.text ++ ' ' :: text, pending.pos, true)

def takeOffered (builder : Builder) (root : List Statement) (text : List Char) (pos : Position) :
    Outcome :=
  let (joined, start, continued) := builder.offered text pos
  { builder with pending := none }.build root joined start continued

theorem feed_eq_takeOffered (builder : Builder) (root : List Statement) (text : List Char)
    (pos : Position) :
    (builder.feed root text pos).builder = (builder.takeOffered root text pos).builder ∧
      (builder.feed root text pos).root = (builder.takeOffered root text pos).root := by
  obtain ⟨frames, blocks, pending⟩ := builder
  cases pending with
  | none => exact ⟨rfl, rfl⟩
  | some pending =>
    simp only [feed, takeOffered, offered]
    split
    · exact ⟨rfl, rfl⟩
    · simp only
      split <;> exact ⟨rfl, rfl⟩

def accepted (builder : Builder) (root : List Statement) (text : List Char) (pos : Position) :
    Option CodeLine :=
  if (builder.takeOffered root text pos).isKept then CodeLine.read? (builder.offered text pos).1
  else none

section Feed

variable {builder : Builder} {root : List Statement} {cursor : Cursor}

theorem Tracks.takeOffered_written (tracks : builder.Tracks root cursor) (text : List Char)
    (pos : Position) :
    let outcome := builder.takeOffered root text pos
    (outcome.isKept = true ∧ ∃ code after, CodeLine.read? (builder.offered text pos).1 = some code ∧
        cursor.write (builder.offered text pos).2.1.line code = some after ∧
        outcome.builder.Tracks outcome.root after) ∨
      (outcome.isKept = false ∧ outcome.root = root ∧ outcome.builder.frames = builder.frames) := by
  have idle : Tracks { builder with pending := none } root cursor := tracks.of_frames rfl
  exact idle.build_written _ _ _

theorem Tracks.feed_written (tracks : builder.Tracks root cursor) (text : List Char)
    (pos : Position) :
    ∃ after, (builder.feed root text pos).builder.Tracks (builder.feed root text pos).root after ∧
      after.lines = cursor.lines ++ (builder.accepted root text pos).toList := by
  obtain ⟨sameBuilder, sameRoot⟩ := builder.feed_eq_takeOffered root text pos
  rw [sameBuilder, sameRoot]
  rcases tracks.takeOffered_written text pos with
    ⟨kept, code, after, read, written, follows⟩ | ⟨lost, same, frames⟩
  · refine ⟨after, follows, ?_⟩
    rw [accepted, if_pos kept, read, Cursor.lines_write written]
    rfl
  · refine ⟨cursor, ?_, ?_⟩
    · rw [same]
      exact tracks.of_frames frames
    · simp [accepted, lost]

end Feed

end Builder

structure Frame.PointsAt (frame : Frame) (node : Conditional) : Prop where
  line : node.line = frame.pos.line
  thenBranch :
    frame.branch = .thenBranch ↔ node.elsifBranches = [] ∧ node.elseBranch = none
  elsifBranch : ∀ number, frame.branch = .elsifBranch number ↔
    node.elsifBranches.length = number + 1 ∧ node.elseBranch = none
  elseBranch : frame.branch = .elseBranch ↔ node.elseBranch ≠ none

def Conditional.statements (node : Conditional) : Branch → List Statement
  | .thenBranch => node.thenBranch
  | .elsifBranch number => (node.elsifBranches[number]?.map ElsifBranch.statements).getD []
  | .elseBranch => node.elseBranch.getD []

def Resolves : List Frame → List Statement → Prop
  | [], _ => True
  | frame :: frames, statements =>
    ∃ before node, statements = before ++ [.conditional node] ∧ frame.index = before.length ∧
      frame.PointsAt node ∧ Resolves frames (node.statements frame.branch)

theorem OpenIf.pointsAt {opened : OpenIf} {frame : Frame} (inner : List Statement)
    (mark : frame.mark = opened.mark) : frame.PointsAt (opened.node inner) := by
  have branch : frame.branch = opened.branch := congrArg (·.1.branch) mark
  have line : frame.pos.line = opened.line := congrArg Prod.snd mark
  obtain ⟨before, condition, number, part⟩ := opened
  cases part <;> constructor <;> simp [branch, line, OpenIf.branch, OpenIf.node]

theorem OpenIf.statements_node (opened : OpenIf) (inner : List Statement) :
    (opened.node inner).statements opened.branch = inner := by
  obtain ⟨before, condition, line, part⟩ := opened
  cases part <;> simp [OpenIf.branch, OpenIf.node, Conditional.statements]

theorem resolves_fill (ifs : List OpenIf) (frames : List Frame) (inner : List Statement)
    (marks : frames.map Frame.mark = ifs.map OpenIf.mark) : Resolves frames (fill ifs inner) := by
  induction ifs generalizing frames with
  | nil =>
    obtain rfl : frames = [] := by simpa using marks
    trivial
  | cons opened ifs ih =>
    obtain ⟨frame, rest, rfl, mark, others⟩ := List.map_eq_cons_iff.mp marks
    have index : frame.index = opened.before.length := congrArg (·.1.index) mark
    have branch : frame.branch = opened.branch := congrArg (·.1.branch) mark
    refine ⟨opened.before, opened.node (fill ifs inner), rfl, index, OpenIf.pointsAt _ mark, ?_⟩
    rw [branch, opened.statements_node]
    exact ih rest others

theorem Builder.Tracks.resolves {builder : Builder} {root : List Statement} {cursor : Cursor}
    (tracks : builder.Tracks root cursor) : Resolves builder.frames root := by
  rw [tracks.root]
  exact resolves_fill cursor.ifs builder.frames cursor.inner tracks.frames

end StructuredText
