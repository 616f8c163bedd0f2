import StructuredText.Proofs.CapitalizedModel

set_option autoImplicit false

namespace StructuredText

/-- The same pending statement. It is still to be read, so its text may differ in the case of
keywords of conditionals only. -/
structure Pending.Respells (one other : Pending) : Prop where
  text : Recased one.text other.text
  pos : one.pos = other.pos

theorem Pending.Respells.unterminated {one other : Pending} (respells : one.Respells other) :
    one.unterminated.capitalized = other.unterminated.capitalized := by
  simp [Pending.unterminated, Problem.capitalized, respells.text.letters, respells.pos]

namespace Builder

structure Respells (one other : Builder) : Prop where
  frames : one.frames = other.frames
  blocks : one.blocks = other.blocks
  pending : Option.Rel Pending.Respells one.pending other.pending

theorem Respells.refl (builder : Builder) : builder.Respells builder := by
  refine ⟨rfl, rfl, ?_⟩
  cases builder.pending with
  | none => exact .none
  | some pending => exact .some ⟨.refl _, rfl⟩

inductive SameResult : Except Problem Fed → Except Problem Fed → Prop where
  | problem {one other : Problem} (same : one.capitalized = other.capitalized) :
    SameResult (.error one) (.error other)
  | statement : SameResult (.ok .statement) (.ok .statement)
  | pending : SameResult (.ok .pending) (.ok .pending)
  | unsupported {text other : List Char} (alike : Recased text other) :
    SameResult (.ok (.unsupported text)) (.ok (.unsupported other))

structure Outcome.Respells (one other : Outcome) : Prop where
  builder : one.builder.Respells other.builder
  root : capitalizedStatements one.root = capitalizedStatements other.root
  result : SameResult one.result other.result
  reported : one.reported.map Diagnostic.capitalized = other.reported.map Diagnostic.capitalized

variable (builder : Builder) {root otherRoot : List Statement} {text other : List Char}
  (roots : capitalizedStatements root = capitalizedStatements otherRoot)

include roots

theorem append_alike {statement otherStatement : Statement}
    (same : statement.capitalized = otherStatement.capitalized) :
    capitalizedResult (builder.append statement root) =
      capitalizedResult (builder.append otherStatement otherRoot) := by
  rw [← append_capitalized, ← append_capitalized, same, roots]

theorem conditional_alike (pos : Position) {word otherWord : ConditionalWord}
    (same : word.capitalized = otherWord.capitalized) :
    capitalizedResult (builder.conditional root pos word) =
      capitalizedResult (builder.conditional otherRoot pos otherWord) := by
  rw [← conditional_capitalized, ← conditional_capitalized, same, roots]

theorem assign_respells (alike : Recased text other) (pos : Position)
    {assignment otherAssignment : Assignment}
    (same : assignment.capitalized = otherAssignment.capitalized) :
    (builder.assign root text pos assignment).Respells
      (builder.assign otherRoot other pos otherAssignment) := by
  obtain ⟨target, expression, terminated⟩ := assignment
  obtain ⟨otherTarget, otherExpression, otherTerminated⟩ := otherAssignment
  simp only [Assignment.capitalized, Assignment.mk.injEq] at same
  obtain ⟨targets, expressions, rfl⟩ := same
  have waits : expectsMore expression = expectsMore otherExpression := by
    rw [← expectsMore_capitals, expressions, expectsMore_capitals]
  simp only [assign, waits]
  split
  · exact ⟨⟨rfl, rfl, .some ⟨alike, rfl⟩⟩, roots, .pending, rfl⟩
  · have sameStatement :
        (Statement.assignment (String.ofList target) (String.ofList expression)
          pos.line).capitalized =
        (Statement.assignment (String.ofList otherTarget) (String.ofList otherExpression)
          pos.line).capitalized := by
      simp [Statement.capitalized, targets, expressions]
    have written := builder.append_alike roots sameStatement
    generalize builder.append _ root = one at written ⊢
    generalize builder.append _ otherRoot = second at written ⊢
    obtain ⟨next, statements, index⟩ := one
    obtain ⟨otherNext, others, otherIndex⟩ := second
    simp only [capitalizedResult, Prod.mk.injEq] at written
    obtain ⟨rfl, sameRoots, -⟩ := written
    cases terminated with
    | true => exact ⟨.refl _, sameRoots, .statement, rfl⟩
    | false => exact ⟨.refl _, sameRoots, .problem rfl, rfl⟩

theorem build_respells (alike : Recased text other) (pos : Position) (continued : Bool) :
    (builder.build root text pos continued).Respells
      (builder.build otherRoot other pos continued) := by
  have unterminated : (Problem.unterminatedStatement (String.ofList text)).capitalized =
      (Problem.unterminatedStatement (String.ofList other)).capitalized := by
    simp [Problem.capitalized, alike.letters]
  simp only [build, alike.blockWord]
  cases (if continued then none else BlockWord.read? other) with
  | some word => cases word <;> exact ⟨.refl _, roots, .unsupported alike, rfl⟩
  | none =>
    have words := alike.conditionalWord
    have assignments := alike.assignment
    generalize ConditionalWord.read? text = word at words ⊢
    generalize ConditionalWord.read? other = otherWord at words ⊢
    generalize Assignment.read? text = assignment at assignments ⊢
    generalize Assignment.read? other = otherAssignment at assignments ⊢
    cases word with
    | some word =>
      obtain ⟨otherWord, rfl, same⟩ := Option.map_eq_some_iff.mp words.symm
      have inBlock : builder.belongsToBlock word = builder.belongsToBlock otherWord := by
        rw [← belongsToBlock_capitalized, ← same, belongsToBlock_capitalized]
      simp only [inBlock]
      split
      · exact ⟨.refl _, roots, .unsupported alike, rfl⟩
      · have written := builder.conditional_alike roots pos same.symm
        generalize builder.conditional root pos word = one at written ⊢
        generalize builder.conditional otherRoot pos otherWord = second at written ⊢
        obtain ⟨next, statements, problem⟩ := one
        obtain ⟨otherNext, others, otherProblem⟩ := second
        simp only [capitalizedResult, Prod.mk.injEq] at written
        obtain ⟨rfl, sameRoots, rfl⟩ := written
        cases problem with
        | none => exact ⟨.refl _, sameRoots, .statement, rfl⟩
        | some problem => exact ⟨.refl _, sameRoots, .problem rfl, rfl⟩
    | none =>
      obtain rfl := Option.map_eq_none_iff.mp words.symm
      cases assignments with
      | some same => exact builder.assign_respells roots alike pos same
      | none =>
        simp only [alike.openCondition, alike.getLast?_iff (by decide : ';'.isAlpha = false)]
        split
        · split
          · exact ⟨.refl _, roots, .problem unterminated, rfl⟩
          · exact ⟨⟨rfl, rfl, .some ⟨alike, rfl⟩⟩, roots, .pending, rfl⟩
        · split
          · exact ⟨.refl _, roots, .problem unterminated, rfl⟩
          · exact ⟨.refl _, roots, .unsupported alike, rfl⟩

omit roots

variable {builder} {otherBuilder : Builder} (respells : builder.Respells otherBuilder)

include respells

theorem Respells.feed (roots : capitalizedStatements root = capitalizedStatements otherRoot)
    (alike : Recased text other) (pos : Position) :
    (builder.feed root text pos).Respells (otherBuilder.feed otherRoot other pos) := by
  obtain ⟨frames, blocks, pending⟩ := builder
  obtain ⟨otherFrames, otherBlocks, otherPending⟩ := otherBuilder
  obtain ⟨rfl, rfl, waiting⟩ := respells
  cases waiting with
  | none => exact build_respells _ roots alike pos false
  | @some pending otherPending same =>
    have interrupts :
        (ConditionalWord.read? text).isSome = (ConditionalWord.read? other).isSome := by
      have words := congrArg Option.isSome alike.conditionalWord
      simpa using words
    simp only [Builder.feed, interrupts]
    split
    · have built := build_respells ⟨frames, blocks, none⟩ roots alike pos false
      exact ⟨built.builder, built.root, built.result, by simp [same.unterminated]⟩
    · have space : WordBreak pending.text (' ' :: text) := .inr (by simp; decide)
      have joined : Recased (pending.text ++ ' ' :: text) (otherPending.text ++ ' ' :: other) := by
        have behind : Recased ([' '] ++ text) ([' '] ++ other) :=
          (Recased.refl [' ']).append alike (.inl (by simp; decide))
        exact same.text.append behind space
      have built := build_respells ⟨frames, blocks, none⟩ roots joined pending.pos true
      rw [same.pos] at built ⊢
      generalize build _ root _ _ true = one at built ⊢
      generalize build _ otherRoot _ _ true = second at built ⊢
      obtain ⟨next, statements, result, reported⟩ := one
      obtain ⟨otherNext, others, otherResult, otherReported⟩ := second
      obtain ⟨builders, sameRoots, results, reports⟩ := built
      cases results with
      | problem sameProblem =>
        exact ⟨builders, sameRoots, .statement, by simp [sameProblem]⟩
      | statement => exact ⟨builders, sameRoots, .statement, reports⟩
      | pending => exact ⟨builders, sameRoots, .pending, reports⟩
      | unsupported texts => exact ⟨builders, sameRoots, .unsupported texts, reports⟩

theorem Respells.dropPending :
    builder.dropPending.1.Respells otherBuilder.dropPending.1 ∧
      builder.dropPending.2.map Diagnostic.capitalized =
        otherBuilder.dropPending.2.map Diagnostic.capitalized := by
  obtain ⟨frames, blocks, pending⟩ := builder
  obtain ⟨otherFrames, otherBlocks, otherPending⟩ := otherBuilder
  obtain ⟨rfl, rfl, waiting⟩ := respells
  refine ⟨.refl _, ?_⟩
  cases waiting with
  | none => rfl
  | some same => simp [Builder.dropPending, same.unterminated]

theorem Respells.close :
    builder.close.map Diagnostic.capitalized = otherBuilder.close.map Diagnostic.capitalized := by
  obtain ⟨frames, blocks, pending⟩ := builder
  obtain ⟨otherFrames, otherBlocks, otherPending⟩ := otherBuilder
  obtain ⟨rfl, rfl, waiting⟩ := respells
  cases waiting with
  | none => rfl
  | some same => simp [Builder.close, same.unterminated]

end Builder

end StructuredText
