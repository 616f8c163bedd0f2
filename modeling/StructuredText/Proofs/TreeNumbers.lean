import StructuredText.Proofs.TreeNodes

set_option autoImplicit false

namespace StructuredText

mutual

def Statement.lineNumbers : Statement → List Nat
  | .assignment _ _ line => [line]
  | .conditional node => Conditional.lineNumbers node

def Conditional.lineNumbers : Conditional → List Nat
  | ⟨_, thenBranch, elsifBranches, elseBranch, line⟩ =>
    line :: lineNumbers thenBranch ++ elsifLineNumbers elsifBranches ++
      match elseBranch with
      | none => []
      | some statements => lineNumbers statements

def lineNumbers : List Statement → List Nat
  | [] => []
  | statement :: rest => statement.lineNumbers ++ lineNumbers rest

def elsifLineNumbers : List ElsifBranch → List Nat
  | [] => []
  | ⟨_, statements, line⟩ :: rest => line :: lineNumbers statements ++ elsifLineNumbers rest

end

mutual

theorem Statement.lineNumbers_eq :
    (statement : Statement) → statement.lineNumbers = statement.nodes.filterMap Node.line?
  | .assignment .. => by simp [Statement.lineNumbers, Statement.nodes, Node.line?]
  | .conditional node => by rw [Statement.lineNumbers, Statement.nodes, node.lineNumbers_eq]

theorem Conditional.lineNumbers_eq :
    (node : Conditional) → node.lineNumbers = node.nodes.filterMap Node.line?
  | ⟨_, thenBranch, elsifs, none, _⟩ => by
    simp [Conditional.lineNumbers, Conditional.nodes, Node.line?, lineNumbers_eq thenBranch,
      elsifLineNumbers_eq elsifs]
  | ⟨_, thenBranch, elsifs, some otherwise, _⟩ => by
    simp [Conditional.lineNumbers, Conditional.nodes, List.filterMap_cons, Node.line?,
      lineNumbers_eq thenBranch, elsifLineNumbers_eq elsifs, lineNumbers_eq otherwise]

theorem lineNumbers_eq :
    (statements : List Statement) → lineNumbers statements = (nodes statements).filterMap Node.line?
  | [] => by simp [lineNumbers, nodes]
  | statement :: rest => by
    rw [lineNumbers, nodes, List.filterMap_append, statement.lineNumbers_eq, lineNumbers_eq rest]

theorem elsifLineNumbers_eq :
    (elsifs : List ElsifBranch) →
      elsifLineNumbers elsifs = (elsifNodes elsifs).filterMap Node.line?
  | [] => by simp [elsifLineNumbers, elsifNodes]
  | ⟨_, statements, _⟩ :: rest => by
    simp [elsifLineNumbers, elsifNodes, Node.line?, lineNumbers_eq statements,
      elsifLineNumbers_eq rest]

end

theorem Builder.Tracks.lineNumbers_feed {builder : Builder} {root : List Statement}
    {cursor : Cursor} (tracks : builder.Tracks root cursor) (text : List Char) (pos : Position) :
    ∃ numbers, lineNumbers (builder.feed root text pos).root = lineNumbers root ++ numbers ∧
      ∀ number ∈ numbers, number = (builder.offered text pos).2.1.line := by
  obtain ⟨added, grown, begun⟩ := tracks.nodes_feed text pos
  refine ⟨added.toList.filterMap Node.line?, ?_, ?_⟩
  · rw [lineNumbers_eq, lineNumbers_eq, grown, List.filterMap_append]
  · intro number member
    obtain ⟨node, isAdded, isLine⟩ := List.mem_filterMap.mp member
    exact begun node (Option.mem_toList.mp isAdded) number isLine

end StructuredText
