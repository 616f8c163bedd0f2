import Mathlib.Tactic.TFAE
import StructuredText.Model.Encoding
import StructuredText.Proofs.JsonText
import StructuredText.Proofs.JsonValues

set_option autoImplicit false

namespace StructuredText

open Json

attribute [ext] Position Variable Unsupported Body Method Property FunctionBlock Program Function
  Document

attribute [local simp] List.lookup_cons List.lookup_append

theorem Scope.keyword_injective : Function.Injective Scope.keyword := by
  intro one other same
  cases one <;> cases other <;> first | rfl | exact absurd same (by decide)

theorem Construct.tag_injective : Function.Injective Construct.tag := by
  intro one other same
  cases one <;> cases other <;> first | rfl | exact absurd same (by decide)

theorem Variable.determined : Determined Variable.toJson := by
  intro one other alike
  have name := Alike.field alike "name"
  have type := Alike.field alike "type"
  have scope := Alike.field alike "scope"
  have initialValue := Alike.field alike "initialValue"
  have comment := Alike.field alike "comment"
  have line := Alike.field alike "lineNumber"
  simp at name type scope initialValue comment line
  exact Variable.ext name type (Scope.keyword_injective scope) (determined_str.option initialValue)
    (determined_str.option comment) line

section Statements

theorem Conditional.toJson_mk (condition : String) (thenBranch : List Statement)
    (elsifs : List ElsifBranch) (otherwise : Option (List Statement)) (line : Nat) :
    Conditional.toJson ⟨condition, thenBranch, elsifs, otherwise, line⟩ =
      .obj ([("type", .str "if"), ("condition", .str condition),
        ("thenStatements", .arr (statementsToJson thenBranch))] ++
        nonempty? "elseIfStatements" (elsifBranchesToJson elsifs) ++
        field? "elseStatements" (otherwise.map fun branch => .arr (statementsToJson branch)) ++
        [("lineNumber", .num line)]) := by
  cases otherwise <;> rfl

mutual

theorem Statement.determined : ∀ {one other : Statement},
    one.toJson.Alike other.toJson → one = other
  | .assignment target expression line, .assignment _ _ _, alike => by
    rw [Statement.toJson, Statement.toJson] at alike
    have sameTarget := alike.field "targetVariable"
    have sameExpression := alike.field "sourceExpression"
    have sameLine := alike.field "lineNumber"
    simp at sameTarget sameExpression sameLine
    rw [sameTarget, sameExpression, sameLine]
  | .assignment _ _ _, .conditional ⟨_, _, _, _, _⟩, alike => by
    rw [Statement.toJson, Statement.toJson, Conditional.toJson_mk] at alike
    simpa using alike.field "type"
  | .conditional ⟨_, _, _, _, _⟩, .assignment _ _ _, alike => by
    rw [Statement.toJson, Statement.toJson, Conditional.toJson_mk] at alike
    simpa using alike.field "type"
  | .conditional node, .conditional _, alike => by
    rw [Statement.toJson, Statement.toJson] at alike
    rw [Conditional.determined alike]

theorem Conditional.determined : ∀ {one other : Conditional},
    one.toJson.Alike other.toJson → one = other
  | ⟨condition, thenBranch, elsifs, otherwise, line⟩, ⟨_, _, _, _, _⟩, alike => by
    rw [Conditional.toJson_mk, Conditional.toJson_mk] at alike
    have sameCondition := alike.field "condition"
    have sameThen := alike.field "thenStatements"
    have sameElsifs := alike.field "elseIfStatements"
    have sameElse := alike.field "elseStatements"
    have sameLine := alike.field "lineNumber"
    simp at sameCondition sameThen sameElsifs sameElse sameLine
    rw [sameCondition, statements_determined sameThen, elsifs_determined sameElsifs,
      otherwise_determined sameElse, sameLine]

theorem statements_determined : ∀ {one other : List Statement},
    List.Forall₂ Alike (statementsToJson one) (statementsToJson other) → one = other
  | [], [], _ => rfl
  | [], _ :: _, alike => by cases alike
  | _ :: _, [], alike => by cases alike
  | first :: rest, _ :: _, alike => by
    rw [statementsToJson, statementsToJson] at alike
    cases alike with
    | cons same others => rw [Statement.determined same, statements_determined others]

theorem elsifs_determined : ∀ {one other : List ElsifBranch},
    List.Forall₂ Alike (elsifBranchesToJson one) (elsifBranchesToJson other) → one = other
  | [], [], _ => rfl
  | [], ⟨_, _, _⟩ :: _, alike => by cases alike
  | ⟨_, _, _⟩ :: _, [], alike => by cases alike
  | ⟨condition, statements, line⟩ :: branches, ⟨_, _, _⟩ :: _, alike => by
    rw [elsifBranchesToJson, elsifBranchesToJson] at alike
    cases alike with
    | cons same others =>
      have sameCondition := same.field "condition"
      have sameStatements := same.field "statements"
      have sameLine := same.field "lineNumber"
      simp at sameCondition sameStatements sameLine
      rw [sameCondition, statements_determined sameStatements, sameLine, elsifs_determined others]

theorem otherwise_determined : ∀ {one other : Option (List Statement)},
    Option.Rel Alike (one.map fun branch => .arr (statementsToJson branch))
      (other.map fun branch => .arr (statementsToJson branch)) → one = other
  | none, none, _ => rfl
  | none, some _, alike => by cases alike
  | some _, none, alike => by cases alike
  | some branch, some _, alike => by
    rw [Option.map_some, Option.map_some, rel_some_iff, alike_arr_iff] at alike
    rw [statements_determined alike]

end

end Statements

section Owners

theorem Unsupported.determined : Determined Unsupported.toJson := by
  intro one other alike
  have text := Alike.field alike "text"
  have line := Alike.field alike "lineNumber"
  simp at text line
  exact Unsupported.ext text line

theorem Body.determined {one other : Body}
    (statements : List.Forall₂ Alike (statementsToJson one.statements)
      (statementsToJson other.statements))
    (unsupported : List.Forall₂ (fun entry found => entry.toJson.Alike found.toJson)
      one.unsupported other.unsupported) : one = other :=
  Body.ext (statements_determined statements) (Unsupported.determined.list unsupported)

attribute [local simp] Body.fields Position.fields varsField

theorem Method.determined : Determined Method.toJson := by
  intro one other alike
  have name := Alike.field alike "name"
  have returnType := Alike.field alike "returnType"
  have parameters := Alike.field alike "parameters"
  have locals := Alike.field alike "localVariables"
  have statements := Alike.field alike "statements"
  have unsupported := Alike.field alike "unsupported"
  have implementation := Alike.field alike "implementation"
  have line := Alike.field alike "lineNumber"
  have column := Alike.field alike "columnStart"
  simp at name returnType parameters locals statements unsupported implementation line column
  exact Method.ext name (determined_str.option returnType) (Variable.determined.list parameters)
    (Variable.determined.list locals) (Body.determined statements unsupported) implementation
    (Position.ext line column)

theorem Property.determined : Determined Property.toJson := by
  intro one other alike
  have name := Alike.field alike "name"
  have type := Alike.field alike "type"
  have hasGetter := Alike.field alike "hasGetter"
  have hasSetter := Alike.field alike "hasSetter"
  have statements := Alike.field alike "statements"
  have unsupported := Alike.field alike "unsupported"
  have implementation := Alike.field alike "implementation"
  have line := Alike.field alike "lineNumber"
  have column := Alike.field alike "columnStart"
  simp at name type hasGetter hasSetter statements unsupported implementation line column
  exact Property.ext name type hasGetter hasSetter (Body.determined statements unsupported)
    implementation (Position.ext line column)

theorem FunctionBlock.determined : Determined FunctionBlock.toJson := by
  intro one other alike
  have name := Alike.field alike "name"
  have base := Alike.field alike "extends"
  have interfaces := Alike.field alike "implements"
  have vars := Alike.field alike "variables"
  have methods := Alike.field alike "methods"
  have properties := Alike.field alike "properties"
  have statements := Alike.field alike "statements"
  have unsupported := Alike.field alike "unsupported"
  have line := Alike.field alike "lineNumber"
  have column := Alike.field alike "columnStart"
  simp at name base interfaces vars methods properties statements unsupported line column
  exact FunctionBlock.ext name (determined_str.option base) interfaces
    (Variable.determined.list vars) (Method.determined.list methods)
    (Property.determined.list properties) (Body.determined statements unsupported)
    (Position.ext line column)

theorem Program.determined : Determined Program.toJson := by
  intro one other alike
  have name := Alike.field alike "name"
  have vars := Alike.field alike "variables"
  have statements := Alike.field alike "statements"
  have unsupported := Alike.field alike "unsupported"
  have line := Alike.field alike "lineNumber"
  have column := Alike.field alike "columnStart"
  simp at name vars statements unsupported line column
  exact Program.ext name (Variable.determined.list vars) (Body.determined statements unsupported)
    (Position.ext line column)

theorem Function.determined : Determined Function.toJson := by
  intro one other alike
  have name := Alike.field alike "name"
  have returnType := Alike.field alike "returnType"
  have parameters := Alike.field alike "parameters"
  have locals := Alike.field alike "localVariables"
  have statements := Alike.field alike "statements"
  have unsupported := Alike.field alike "unsupported"
  have line := Alike.field alike "lineNumber"
  have column := Alike.field alike "columnStart"
  simp at name returnType parameters locals statements unsupported line column
  exact Function.ext name (determined_str.option returnType) (Variable.determined.list parameters)
    (Variable.determined.list locals) (Body.determined statements unsupported)
    (Position.ext line column)

end Owners

section Diagnostics

theorem Problem.determined : Determined Problem.toJson := by
  intro one other alike
  have code := Alike.field alike "code"
  have detail := Alike.field alike "detail"
  simp at code detail
  -- Problems of two kinds have different codes. What is left are pairs of one kind.
  cases one <;> cases other <;> simp only [Problem.code, String.reduceEq] at code
  case unclosed.unclosed =>
    rw [Problem.detail, Problem.detail, rel_some_iff] at detail
    have kind := detail.field "kind"
    have name := detail.field "name"
    simp at kind name
    rw [Construct.tag_injective kind, name]
  case mismatchedEnd.mismatchedEnd =>
    rw [Problem.detail, Problem.detail, rel_some_iff] at detail
    have found := detail.field "found"
    have kind := detail.field "kind"
    have name := detail.field "name"
    simp at found kind name
    rw [found, Construct.tag_injective kind, name]
  all_goals simp_all [Problem.detail, Construct.tag_injective.eq_iff]

theorem Diagnostic.determined : Determined Diagnostic.toJson := by
  rintro ⟨problem, line, column⟩ ⟨_, _, _⟩ alike
  have sameProblem := Alike.field alike "kind"
  have sameLine := Alike.field alike "lineNumber"
  have sameColumn := Alike.field alike "columnStart"
  simp at sameProblem sameLine sameColumn
  rw [Problem.determined sameProblem, sameLine, determined_num.option sameColumn]

end Diagnostics

theorem Document.determined : Determined Document.toJson := by
  intro one other alike
  have functionBlocks := Alike.field alike "functionBlocks"
  have programs := Alike.field alike "programs"
  have functions := Alike.field alike "functions"
  have diagnostics := Alike.field alike "errors"
  simp at functionBlocks programs functions diagnostics
  exact Document.ext (FunctionBlock.determined.list functionBlocks)
    (Program.determined.list programs) (Function.determined.list functions)
    (Diagnostic.determined.list diagnostics)

theorem Document.same_tfae_json (one other : Document) :
    List.TFAE [one = other, one.toJson = other.toJson, one.toJson.Alike other.toJson,
      one.toJson.pretty 0 = other.toJson.pretty 0] := by
  tfae_have 1 → 4 := fun same => by rw [same]
  tfae_have 4 → 2 := fun printed => pretty_injective 0 printed
  tfae_have 2 → 3 := fun same => same ▸ .refl _
  tfae_have 3 → 1 := fun alike => Document.determined alike
  tfae_finish

end StructuredText
