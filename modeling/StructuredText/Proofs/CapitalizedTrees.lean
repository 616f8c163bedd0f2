import StructuredText.Proofs.RecasedStatements
import StructuredText.Proofs.View

set_option autoImplicit false

namespace StructuredText

mutual

def Statement.capitalized : Statement → Statement
  | .assignment target expression line =>
    .assignment (inCapitals target) (inCapitals expression) line
  | .conditional node => .conditional node.capitalized

def Conditional.capitalized : Conditional → Conditional
  | ⟨condition, thenBranch, elsifBranches, elseBranch, line⟩ =>
    { condition := inCapitals condition
      thenBranch := capitalizedStatements thenBranch
      elsifBranches := capitalizedElsifs elsifBranches
      elseBranch :=
        match elseBranch with
        | none => none
        | some statements => some (capitalizedStatements statements)
      line }

def capitalizedStatements : List Statement → List Statement
  | [] => []
  | statement :: rest => statement.capitalized :: capitalizedStatements rest

def capitalizedElsifs : List ElsifBranch → List ElsifBranch
  | [] => []
  | ⟨condition, statements, line⟩ :: rest =>
    ⟨inCapitals condition, capitalizedStatements statements, line⟩ :: capitalizedElsifs rest

end

def ElsifBranch.capitalized (branch : ElsifBranch) : ElsifBranch :=
  ⟨inCapitals branch.condition, capitalizedStatements branch.statements, branch.line⟩

theorem capitalizedStatements_eq_map (statements : List Statement) :
    capitalizedStatements statements = statements.map Statement.capitalized := by
  induction statements with
  | nil => simp [capitalizedStatements]
  | cons statement rest ih => simp [capitalizedStatements, ih]

theorem capitalizedElsifs_eq_map (branches : List ElsifBranch) :
    capitalizedElsifs branches = branches.map ElsifBranch.capitalized := by
  induction branches with
  | nil => simp [capitalizedElsifs]
  | cons branch rest ih =>
    obtain ⟨condition, statements, line⟩ := branch
    simp [capitalizedElsifs, ElsifBranch.capitalized, ih]

theorem Conditional.capitalized_mk (condition : String) (thenBranch : List Statement)
    (elsifs : List ElsifBranch) (otherwise : Option (List Statement)) (line : Nat) :
    Conditional.capitalized ⟨condition, thenBranch, elsifs, otherwise, line⟩ =
      { condition := inCapitals condition
        thenBranch := capitalizedStatements thenBranch
        elsifBranches := elsifs.map ElsifBranch.capitalized
        elseBranch := otherwise.map capitalizedStatements
        line } := by
  rw [← capitalizedElsifs_eq_map]
  cases otherwise <;> simp [Conditional.capitalized]

def capitalLetters : Relabeling where
  text := inCapitals
  line := id
  statement := Statement.capitalized
  conditional := Conditional.capitalized
  elsif := ElsifBranch.capitalized
  statements := capitalizedStatements
  text_eq_empty := inCapitals_eq_empty
  assignment_mk _ _ _ := by rw [Statement.capitalized, id]
  statement_conditional _ := by rw [Statement.capitalized]
  conditional_mk := Conditional.capitalized_mk
  elsif_mk _ _ _ := rfl
  statements_eq_map := capitalizedStatements_eq_map

namespace Builder

def capitalizedResult {ρ : Type} (result : Builder × List Statement × ρ) :
    Builder × List Statement × ρ :=
  (result.1, capitalizedStatements result.2.1, result.2.2)

theorem relabeledResult_capitalLetters {ρ : Type} (result : Builder × List Statement × ρ) :
    relabeledResult capitalLetters .full result = capitalizedResult result := by
  simp [relabeledResult, capitalizedResult, capitalLetters]

variable (builder : Builder) (root : List Statement) (pos : Position)

theorem append_capitalized (statement : Statement) :
    builder.append statement.capitalized (capitalizedStatements root) =
      capitalizedResult (builder.append statement root) := by
  have written := builder.append_relabeled (v := .full) root capitalLetters statement
  rwa [viewed_full, relabeledResult_capitalLetters] at written

theorem conditional_capitalized (word : ConditionalWord) :
    builder.conditional (capitalizedStatements root) pos word.capitalized =
      capitalizedResult (builder.conditional root pos word) := by
  have sameWord : capitalLetters.word word = word.capitalized := by
    cases word <;> rfl
  have written :=
    builder.conditional_relabeled (v := .full) root pos (m := capitalLetters) word rfl
  rwa [viewed_full, relabeledResult_capitalLetters, sameWord] at written

theorem belongsToBlock_capitalized (word : ConditionalWord) :
    builder.belongsToBlock word.capitalized = builder.belongsToBlock word := by
  cases word <;> rfl

end Builder

end StructuredText
