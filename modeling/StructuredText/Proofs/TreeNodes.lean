import StructuredText.Proofs.Builder

set_option autoImplicit false

namespace StructuredText

/-- A statement, or the start of a branch. An ELSE has no number in the tree, and an END_IF leaves
no trace. -/
inductive Node where
  | assignment (target expression : String) (line : Nat)
  | ifThen (condition : String) (line : Nat)
  | elsif (condition : String) (line : Nat)
  | otherwise
  deriving DecidableEq

def Node.line? : Node → Option Nat
  | assignment _ _ line | ifThen _ line | elsif _ line => some line
  | otherwise => none

mutual

def Statement.nodes : Statement → List Node
  | .assignment target expression line => [.assignment target expression line]
  | .conditional node => Conditional.nodes node

def Conditional.nodes : Conditional → List Node
  | ⟨condition, thenBranch, elsifBranches, elseBranch, line⟩ =>
    .ifThen condition line :: nodes thenBranch ++ elsifNodes elsifBranches ++
      match elseBranch with
      | none => []
      | some statements => .otherwise :: nodes statements

def nodes : List Statement → List Node
  | [] => []
  | statement :: rest => statement.nodes ++ nodes rest

def elsifNodes : List ElsifBranch → List Node
  | [] => []
  | ⟨condition, statements, line⟩ :: rest =>
    .elsif condition line :: nodes statements ++ elsifNodes rest

end

@[simp] theorem nodes_append (before after : List Statement) :
    nodes (before ++ after) = nodes before ++ nodes after := by
  induction before with
  | nil => simp [nodes]
  | cons statement before ih => simp [nodes, ih]

@[simp] theorem elsifNodes_append (before after : List ElsifBranch) :
    elsifNodes (before ++ after) = elsifNodes before ++ elsifNodes after := by
  induction before with
  | nil => simp [elsifNodes]
  | cons branch before ih =>
    obtain ⟨condition, statements, line⟩ := branch
    simp [elsifNodes, ih]

namespace OpenIf

def nodes (opened : OpenIf) : List Node :=
  StructuredText.nodes opened.before ++ .ifThen opened.condition opened.line ::
    match opened.part with
    | .thenPart => []
    | .elsifPart thenBranch elsifs condition line =>
      StructuredText.nodes thenBranch ++ elsifNodes elsifs ++ [.elsif condition line]
    | .elsePart thenBranch elsifs =>
      StructuredText.nodes thenBranch ++ elsifNodes elsifs ++ [.otherwise]

theorem nodes_close (opened : OpenIf) (inner : List Statement) :
    StructuredText.nodes (opened.close inner) = opened.nodes ++ StructuredText.nodes inner := by
  obtain ⟨before, condition, line, part⟩ := opened
  cases part <;>
    simp [close, node, nodes, StructuredText.nodes, Statement.nodes, Conditional.nodes, elsifNodes]

theorem nodes_startElsif {opened : OpenIf} (inner : List Statement) (condition : String)
    (line : Nat) (unfinished : opened.branch ≠ .elseBranch) :
    (opened.startElsif inner condition line).nodes =
      opened.nodes ++ StructuredText.nodes inner ++ [.elsif condition line] := by
  obtain ⟨before, outer, number, part⟩ := opened
  cases part with
  | elsePart => simp [branch] at unfinished
  | thenPart => simp [nodes, startElsif, node, elsifNodes]
  | elsifPart => simp [nodes, startElsif, node, elsifNodes]

theorem nodes_startElse {opened : OpenIf} (inner : List Statement)
    (unfinished : opened.branch ≠ .elseBranch) :
    (opened.startElse inner).nodes =
      opened.nodes ++ StructuredText.nodes inner ++ [.otherwise] := by
  obtain ⟨before, outer, number, part⟩ := opened
  cases part with
  | elsePart => simp [branch] at unfinished
  | thenPart => simp [nodes, startElse, node, elsifNodes]
  | elsifPart => simp [nodes, startElse, node, elsifNodes]

end OpenIf

theorem nodes_fill (ifs : List OpenIf) (inner : List Statement) :
    nodes (fill ifs inner) = ifs.flatMap OpenIf.nodes ++ nodes inner := by
  induction ifs with
  | nil => simp
  | cons opened ifs ih => simp [OpenIf.nodes_close, ih]

def CodeLine.node? (line : Nat) : CodeLine → Option Node
  | assignment target expression => some (.assignment target expression line)
  | ifThen condition => some (.ifThen condition line)
  | elsif condition => some (.elsif condition line)
  | otherwise => some .otherwise
  | endIf => none

theorem CodeLine.line_of_node? {line : Nat} {code : CodeLine} {node : Node}
    (isNode : code.node? line = some node) : ∀ number ∈ node.line?, number = line := by
  cases code <;> cases isNode <;> simp [Node.line?]

theorem Cursor.nodes_write {cursor after : Cursor} {line : Nat} {code : CodeLine}
    (written : cursor.write line code = some after) :
    nodes after.root = nodes cursor.root ++ (code.node? line).toList := by
  simp only [Cursor.root, nodes_fill]
  cases code with
  | assignment target expression =>
    cases written
    simp [nodes, Statement.nodes, CodeLine.node?]
  | ifThen condition =>
    cases written
    simp [OpenIf.nodes, nodes, CodeLine.node?]
  | elsif condition =>
    obtain ⟨outer, opened, shape, unfinished, rfl⟩ := startBranch_eq_some written
    simp [shape, OpenIf.nodes_startElsif _ _ _ unfinished, nodes, CodeLine.node?]
  | otherwise =>
    obtain ⟨outer, opened, shape, unfinished, rfl⟩ := startBranch_eq_some written
    simp [shape, OpenIf.nodes_startElse _ unfinished, nodes, CodeLine.node?]
  | endIf =>
    obtain ⟨opened, last, rfl⟩ := Option.map_eq_some_iff.mp written
    obtain ⟨outer, shape⟩ := List.getLast?_eq_some_iff.mp last
    simp [shape, OpenIf.nodes_close, CodeLine.node?]

theorem Builder.Tracks.nodes_feed {builder : Builder} {root : List Statement} {cursor : Cursor}
    (tracks : builder.Tracks root cursor) (text : List Char) (pos : Position) :
    ∃ added : Option Node, nodes (builder.feed root text pos).root = nodes root ++ added.toList ∧
      ∀ node ∈ added, ∀ number ∈ node.line?, number = (builder.offered text pos).2.1.line := by
  rw [(builder.feed_eq_takeOffered root text pos).2]
  rcases tracks.takeOffered_written text pos with
    ⟨-, code, after, -, written, follows⟩ | ⟨-, same, -⟩
  · refine ⟨code.node? (builder.offered text pos).2.1.line, ?_, ?_⟩
    · rw [follows.root, Cursor.nodes_write written, tracks.root]
    · exact fun node isNode => CodeLine.line_of_node? isNode
  · exact ⟨none, by simp [same], by simp⟩

end StructuredText
