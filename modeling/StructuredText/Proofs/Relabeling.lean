import StructuredText.StatementTree

set_option autoImplicit false

namespace StructuredText

theorem modifyNth?_map {α β ρ : Type} {f : α → β} {change : α → Option (α × ρ)}
    {changed : β → Option (β × ρ)} (commutes : ∀ a, changed (f a) = putBack f (change a))
    (index : Nat) (list : List α) :
    modifyNth? changed index (list.map f) =
      putBack (List.map f) (modifyNth? change index list) := by
  induction list generalizing index with
  | nil => cases index <;> rfl
  | cons a rest ih =>
    cases index with
    | zero =>
      rw [List.map_cons, modifyNth?, modifyNth?, commutes]
      cases change a <;> rfl
    | succ index =>
      rw [List.map_cons, modifyNth?, modifyNth?, ih]
      cases modifyNth? change index rest <;> rfl

structure Relabeling where
  text : String → String
  line : Nat → Nat
  statement : Statement → Statement
  conditional : Conditional → Conditional
  elsif : ElsifBranch → ElsifBranch
  statements : List Statement → List Statement
  -- That a condition is missing is seen by its text.
  text_eq_empty : ∀ s, text s = "" ↔ s = ""
  assignment_mk : ∀ target expression number,
    statement (.assignment target expression number) =
      .assignment (text target) (text expression) (line number)
  statement_conditional : ∀ node, statement (.conditional node) = .conditional (conditional node)
  conditional_mk : ∀ condition thenBranch elsifs otherwise number,
    conditional ⟨condition, thenBranch, elsifs, otherwise, number⟩ =
      { condition := text condition
        thenBranch := statements thenBranch
        elsifBranches := elsifs.map elsif
        elseBranch := otherwise.map statements
        line := line number }
  elsif_mk : ∀ condition list number,
    elsif ⟨condition, list, number⟩ = ⟨text condition, statements list, line number⟩
  statements_eq_map : ∀ list, statements list = list.map statement

namespace Relabeling

variable (m : Relabeling)

@[simp] theorem statements_nil : m.statements [] = [] := by
  simp [m.statements_eq_map]

@[simp] theorem statements_append (before after : List Statement) :
    m.statements (before ++ after) = m.statements before ++ m.statements after := by
  simp [m.statements_eq_map]

@[simp] theorem statements_singleton (statement : Statement) :
    m.statements [statement] = [m.statement statement] := by
  simp [m.statements_eq_map]

@[simp] theorem length_statements (list : List Statement) :
    (m.statements list).length = list.length := by
  simp [m.statements_eq_map]

section Modify

variable {m} {ρ : Type}

theorem modifyBranch? {change changed : List Statement → Option (List Statement × ρ)}
    (commutes : ∀ list, changed (m.statements list) = putBack m.statements (change list))
    (node : Conditional) (branch : Branch) :
    (m.conditional node).modifyBranch? changed branch =
      putBack m.conditional (node.modifyBranch? change branch) := by
  obtain ⟨condition, thenBranch, elsifs, otherwise, number⟩ := node
  cases branch with
  | thenBranch =>
    simp only [m.conditional_mk, Conditional.modifyBranch?, commutes]
    cases change thenBranch <;> simp [putBack, m.conditional_mk]
  | elsifBranch index =>
    have inBranch (branch : ElsifBranch) :
        putBack (fun statements => { m.elsif branch with statements })
            (changed (m.elsif branch).statements) =
          putBack m.elsif
            (putBack (fun statements => { branch with statements })
              (change branch.statements)) := by
      obtain ⟨condition, list, number⟩ := branch
      simp only [m.elsif_mk, commutes]
      cases change list <;> simp [putBack, m.elsif_mk]
    simp only [m.conditional_mk, Conditional.modifyBranch?]
    rw [modifyNth?_map inBranch]
    cases StructuredText.modifyNth? _ index elsifs <;> simp [putBack, m.conditional_mk]
  | elseBranch =>
    have onElse : changed ((otherwise.map m.statements).getD []) =
        putBack m.statements (change (otherwise.getD [])) := by
      rw [← commutes]
      cases otherwise <;> simp
    simp only [m.conditional_mk, Conditional.modifyBranch?, onElse]
    cases change (otherwise.getD []) <;> simp [putBack, m.conditional_mk]

theorem modifyConditional? {change changed : Conditional → Option (Conditional × ρ)}
    (commutes : ∀ node, changed (m.conditional node) = putBack m.conditional (change node))
    (statement : Statement) :
    (m.statement statement).modifyConditional? changed =
      putBack m.statement (statement.modifyConditional? change) := by
  cases statement with
  | assignment target expression number =>
    simp [m.assignment_mk, Statement.modifyConditional?, putBack]
  | conditional node =>
    simp only [m.statement_conditional, Statement.modifyConditional?, commutes]
    cases change node <;> simp [putBack, m.statement_conditional]

theorem modifyNth? {change changed : Statement → Option (Statement × ρ)}
    (commutes : ∀ statement,
      changed (m.statement statement) = putBack m.statement (change statement))
    (index : Nat) (list : List Statement) :
    StructuredText.modifyNth? changed index (m.statements list) =
      putBack m.statements (StructuredText.modifyNth? change index list) := by
  rw [m.statements_eq_map, modifyNth?_map commutes]
  cases StructuredText.modifyNth? change index list <;> simp [putBack, m.statements_eq_map]

theorem modifyAt? {change changed : List Statement → Option (List Statement × ρ)}
    (commutes : ∀ list, changed (m.statements list) = putBack m.statements (change list))
    (path : List Turn) (list : List Statement) :
    Statement.modifyAt? changed path (m.statements list) =
      putBack m.statements (Statement.modifyAt? change path list) := by
  induction path generalizing list with
  | nil => exact commutes list
  | cons turn path ih =>
    rw [Statement.modifyAt?, Statement.modifyAt?]
    refine modifyNth? ?_ turn.index list
    refine modifyConditional? ?_
    exact fun node => modifyBranch? ih node turn.branch

end Modify

def word : ConditionalWord → ConditionalWord
  | .ifThen condition => .ifThen (m.text condition)
  | .elsif condition => .elsif (m.text condition)
  | .otherwise => .otherwise
  | .endIf => .endIf

theorem missingCondition? (keyword condition : String) :
    Builder.missingCondition? keyword (m.text condition) =
      Builder.missingCondition? keyword condition := by
  simp only [Builder.missingCondition?, m.text_eq_empty]

end Relabeling

end StructuredText
