import StructuredText.Proofs.Extension
import StructuredText.Proofs.Marks

set_option autoImplicit false

namespace StructuredText

def Ascends (first : Nat) (numbers : List Nat) : Prop :=
  (first :: numbers).Pairwise (· ≤ ·)

structure Sequence {α : Type} (line : α → Nat) (inside : α → Prop) (first : Nat) (list : List α) :
    Prop where
  lines : Ascends first (list.map line)
  each : ∀ a ∈ list, inside a

structure Body.InOrder (first : Nat) (body : Body) : Prop where
  statements : Ascends first (lineNumbers body.statements)
  unsupported : Ascends first (body.unsupported.map Unsupported.line)

structure Method.InOrder (method : Method) : Prop where
  parameters : Ascends method.pos.line (method.parameters.map Variable.line)
  locals : Ascends method.pos.line (method.locals.map Variable.line)
  body : method.body.InOrder method.pos.line

structure Property.InOrder (property : Property) : Prop where
  body : property.body.InOrder property.pos.line

structure FunctionBlock.InOrder (block : FunctionBlock) : Prop where
  vars : Ascends block.pos.line (block.vars.map Variable.line)
  methods : Sequence (fun method => method.pos.line) Method.InOrder block.pos.line block.methods
  properties :
    Sequence (fun property => property.pos.line) Property.InOrder block.pos.line block.properties
  body : block.body.InOrder block.pos.line

structure Program.InOrder (program : Program) : Prop where
  vars : Ascends program.pos.line (program.vars.map Variable.line)
  body : program.body.InOrder program.pos.line

structure Function.InOrder (function : Function) : Prop where
  parameters : Ascends function.pos.line (function.parameters.map Variable.line)
  locals : Ascends function.pos.line (function.locals.map Variable.line)
  body : function.body.InOrder function.pos.line

structure Document.InOrder (document : Document) : Prop where
  functionBlocks :
    Sequence (fun block => block.pos.line) FunctionBlock.InOrder 0 document.functionBlocks
  programs : Sequence (fun program => program.pos.line) Program.InOrder 0 document.programs
  functions : Sequence (fun function => function.pos.line) Function.InOrder 0 document.functions

namespace Ascends

variable {first last : Nat} {numbers more : List Nat}

theorem nil (first : Nat) : Ascends first [] :=
  List.pairwise_singleton _ _

theorem append (ascends : Ascends first numbers) (begun : first ≤ last)
    (early : ∀ number ∈ numbers, number ≤ last) (late : ∀ number ∈ more, number = last) :
    Ascends first (numbers ++ more) := by
  rw [Ascends, ← List.cons_append, List.pairwise_append]
  refine ⟨ascends, ?_, ?_⟩
  · refine List.pairwise_of_forall_mem_list fun one isOne other isOther => ?_
    rw [late one isOne, late other isOther]
  · intro one isOne other isOther
    rw [late other isOther]
    rcases List.mem_cons.mp isOne with rfl | isEarly
    · exact begun
    · exact early one isEarly

theorem concat_iff {last : Nat} :
    Ascends first (numbers ++ [last]) ↔
      Ascends first numbers ∧ first ≤ last ∧ ∀ number ∈ numbers, number ≤ last := by
  rw [Ascends, ← List.cons_append, List.pairwise_append]
  simp [Ascends]

end Ascends

theorem Sequence.nil {α : Type} (line : α → Nat) (inside : α → Prop) (first : Nat) :
    Sequence line inside first [] :=
  ⟨.nil first, by simp⟩

theorem Sequence.concat_iff {α : Type} {line : α → Nat} {inside : α → Prop} {first : Nat}
    {list : List α} {a : α} :
    Sequence line inside first (list ++ [a]) ↔
      Sequence line inside first list ∧ (first ≤ line a ∧ ∀ b ∈ list, line b ≤ line a) ∧
        inside a := by
  constructor
  · rintro ⟨lines, each⟩
    rw [List.map_append, List.map_singleton, Ascends.concat_iff] at lines
    obtain ⟨earlier, begun, above⟩ := lines
    exact ⟨⟨earlier, fun b isEarlier => each b (by simp [isEarlier])⟩,
      ⟨begun, by simpa using above⟩, each a (by simp)⟩
  · rintro ⟨⟨lines, each⟩, ⟨begun, above⟩, inOrder⟩
    constructor
    · rw [List.map_append, List.map_singleton, Ascends.concat_iff]
      exact ⟨lines, begun, by simpa using above⟩
    · intro b isOne
      rcases List.mem_append.mp isOne with earlier | isLast
      · exact each b earlier
      · rw [List.mem_singleton.mp isLast]
        exact inOrder

theorem Body.InOrder.empty (first : Nat) : Body.InOrder first {} :=
  ⟨.nil first, .nil first⟩

theorem FunctionBlock.inOrder_addMethod {block : FunctionBlock} {method : Method} :
    (block.addMember (.method method)).InOrder ↔
      block.InOrder ∧ (block.pos.line ≤ method.pos.line ∧
        ∀ other ∈ block.methods, other.pos.line ≤ method.pos.line) ∧ method.InOrder := by
  constructor
  · rintro ⟨vars, methods, properties, body⟩
    obtain ⟨earlier, above, inOrder⟩ := Sequence.concat_iff.mp methods
    exact ⟨⟨vars, earlier, properties, body⟩, above, inOrder⟩
  · rintro ⟨⟨vars, earlier, properties, body⟩, above, inOrder⟩
    exact ⟨vars, Sequence.concat_iff.mpr ⟨earlier, above, inOrder⟩, properties, body⟩

theorem FunctionBlock.inOrder_addProperty {block : FunctionBlock} {property : Property} :
    (block.addMember (.property property)).InOrder ↔
      block.InOrder ∧ (block.pos.line ≤ property.pos.line ∧
        ∀ other ∈ block.properties, other.pos.line ≤ property.pos.line) ∧ property.InOrder := by
  constructor
  · rintro ⟨vars, methods, properties, body⟩
    obtain ⟨earlier, above, inOrder⟩ := Sequence.concat_iff.mp properties
    exact ⟨⟨vars, methods, earlier, body⟩, above, inOrder⟩
  · rintro ⟨⟨vars, methods, earlier, body⟩, above, inOrder⟩
    exact ⟨vars, methods, Sequence.concat_iff.mpr ⟨earlier, above, inOrder⟩, body⟩

def UpTo (last : Nat) (marks : List Mark) : Prop :=
  ∀ number, Mark.line number ∈ marks → number ≤ last

namespace OpenPou

def InOrder (pou : OpenPou) : Prop :=
  match pou.closeMember with
  | functionBlock block _ => block.InOrder
  | program p => p.InOrder
  | function f => f.InOrder

def headerLine (pou : OpenPou) : Nat :=
  ((pou.member?.map Member.pos).getD pou.pos).line

variable {pou : OpenPou}

theorem body_inOrder (inOrder : pou.InOrder) : pou.body.InOrder pou.headerLine := by
  rcases pou with ⟨block, _ | (method | property)⟩ | program | function
  · exact FunctionBlock.InOrder.body inOrder
  · exact (FunctionBlock.inOrder_addMethod.mp inOrder).2.2.body
  · exact (FunctionBlock.inOrder_addProperty.mp inOrder).2.2.body
  · exact Program.InOrder.body inOrder
  · exact Function.InOrder.body inOrder

theorem inOrder_setBody {body : Body} (inOrder : pou.InOrder)
    (grown : body.InOrder pou.headerLine) : (pou.setBody body).InOrder := by
  rcases pou with ⟨block, _ | (method | property)⟩ | program | function
  · obtain ⟨vars, methods, properties, -⟩ : block.InOrder := inOrder
    exact ⟨vars, methods, properties, grown⟩
  · obtain ⟨owner, above, parameters, locals, -⟩ := FunctionBlock.inOrder_addMethod.mp inOrder
    exact FunctionBlock.inOrder_addMethod.mpr ⟨owner, above, parameters, locals, grown⟩
  · obtain ⟨owner, above, -⟩ := FunctionBlock.inOrder_addProperty.mp inOrder
    exact FunctionBlock.inOrder_addProperty.mpr ⟨owner, above, ⟨grown⟩⟩
  · obtain ⟨vars, -⟩ : program.InOrder := inOrder
    exact ⟨vars, grown⟩
  · obtain ⟨parameters, locals, -⟩ : function.InOrder := inOrder
    exact ⟨parameters, locals, grown⟩

theorem inOrder_setMember {member : Member} (isOpen : pou.member? = some member) (text : String)
    (inOrder : pou.InOrder) : (pou.setMember (some (member.addImplementation text))).InOrder := by
  cases pou with
  | functionBlock block inner =>
    obtain rfl : inner = some member := isOpen
    cases member with
    | method method =>
      obtain ⟨owner, above, parameters, locals, body⟩ := FunctionBlock.inOrder_addMethod.mp inOrder
      exact FunctionBlock.inOrder_addMethod.mpr ⟨owner, above, parameters, locals, body⟩
    | property property =>
      obtain ⟨owner, above, ⟨body⟩⟩ := FunctionBlock.inOrder_addProperty.mp inOrder
      exact FunctionBlock.inOrder_addProperty.mpr ⟨owner, above, ⟨body⟩⟩
  | program p => cases isOpen
  | function f => cases isOpen

theorem inOrder_withAccessor {accessor : Accessor} {next : OpenPou}
    (amended : pou.withAccessor? accessor = some next) (inOrder : pou.InOrder) : next.InOrder := by
  rcases pou with ⟨block, _ | (method | property)⟩ | program | function
  all_goals cases amended
  obtain ⟨owner, above, ⟨body⟩⟩ := FunctionBlock.inOrder_addProperty.mp inOrder
  cases accessor <;> exact FunctionBlock.inOrder_addProperty.mpr ⟨owner, above, ⟨body⟩⟩

theorem inOrder_ofHeader (header : PouHeader) (pos : Position) : (ofHeader header pos).InOrder := by
  simp only [ofHeader]
  cases header.kind with
  | functionBlock => exact ⟨.nil _, .nil _ _ _, .nil _ _ _, .empty _⟩
  | program => exact ⟨.nil _, .empty _⟩
  | function => exact ⟨.nil _, .nil _, .empty _⟩

theorem inOrder_openMethod {block : FunctionBlock} {method : Method}
    (inOrder : (functionBlock block none).InOrder)
    (early : UpTo method.pos.line (functionBlock block none).marks) (inside : method.InOrder) :
    (functionBlock block (some (.method method))).InOrder := by
  refine FunctionBlock.inOrder_addMethod.mpr ⟨inOrder, ⟨?_, ?_⟩, inside⟩
  · exact early _ (by simp [marks, FunctionBlock.marks, headerMarks, Position.marks])
  · intro other isOther
    refine early _ (List.mem_append_left _ ?_)
    have above : Mark.line other.pos.line ∈ other.marks := by
      simp [Method.marks, headerMarks, Position.marks]
    simp only [FunctionBlock.marks, List.mem_append, List.mem_flatMap]
    exact .inl (.inl (.inr ⟨other, isOther, above⟩))

theorem inOrder_openProperty {block : FunctionBlock} {property : Property}
    (inOrder : (functionBlock block none).InOrder)
    (early : UpTo property.pos.line (functionBlock block none).marks) (inside : property.InOrder) :
    (functionBlock block (some (.property property))).InOrder := by
  refine FunctionBlock.inOrder_addProperty.mpr ⟨inOrder, ⟨?_, ?_⟩, inside⟩
  · exact early _ (by simp [marks, FunctionBlock.marks, headerMarks, Position.marks])
  · intro other isOther
    refine early _ (List.mem_append_left _ ?_)
    have above : Mark.line other.pos.line ∈ other.marks := by
      simp [Property.marks, headerMarks, Position.marks]
    simp only [FunctionBlock.marks, List.mem_append, List.mem_flatMap]
    exact .inl (.inr ⟨other, isOther, above⟩)

theorem pos_ofHeader (header : PouHeader) (pos : Position) : (ofHeader header pos).pos = pos := by
  cases kind : header.kind <;> simp [ofHeader, kind, OpenPou.pos]

theorem inOrder_addVariable {v : Variable} (inOrder : pou.InOrder) (early : UpTo v.line pou.marks) :
    (pou.addVariable v).InOrder := by
  have concat {first : Nat} {vs : List Variable} (ascends : Ascends first (vs.map Variable.line))
      (begun : Mark.line first ∈ pou.marks) (inside : vs.map Variable.mark ⊆ pou.marks) :
      Ascends first ((vs ++ [v]).map Variable.line) := by
    rw [List.map_append, List.map_singleton, Ascends.concat_iff]
    refine ⟨ascends, early _ begun, fun number isEarlier => ?_⟩
    obtain ⟨other, isOther, rfl⟩ := List.mem_map.mp isEarlier
    exact early _ (inside (List.mem_map_of_mem isOther))
  have added {block : FunctionBlock} (ofBlock : block.InOrder) (inside : block.marks ⊆ pou.marks) :
      (block.addVariable v).InOrder := by
    have begun : Mark.line block.pos.line ∈ block.marks := by
      simp [FunctionBlock.marks, headerMarks, Position.marks]
    have listed : block.vars.map Variable.mark ⊆ block.marks := fun mark isMark => by
      simp only [FunctionBlock.marks, List.mem_append, isMark, or_true, true_or]
    exact
      { ofBlock with vars := concat ofBlock.vars (inside begun) (List.Subset.trans listed inside) }
  rcases pou with ⟨block, _ | (method | property)⟩ | program | function
  · exact added inOrder (by simp [marks])
  · obtain ⟨owner, above, ofMethod⟩ := FunctionBlock.inOrder_addMethod.mp inOrder
    have inside : method.marks ⊆ (functionBlock block (some (.method method))).marks := by
      simp [marks, Member.marks]
    simp only [addVariable]
    split
    · have begun : Mark.line method.pos.line ∈ method.marks := by
        simp [Method.marks, headerMarks, Position.marks]
      have listed : method.locals.map Variable.mark ⊆ method.marks := fun mark isMark => by
        simp only [Method.marks, List.mem_append, isMark, or_true, true_or]
      exact FunctionBlock.inOrder_addMethod.mpr ⟨owner, above,
        { ofMethod with
          locals := concat ofMethod.locals (inside begun) (List.Subset.trans listed inside) }⟩
    · exact FunctionBlock.inOrder_addMethod.mpr
        ⟨added owner (by simp [marks]), above, ofMethod⟩
  · obtain ⟨owner, above, ofProperty⟩ := FunctionBlock.inOrder_addProperty.mp inOrder
    exact FunctionBlock.inOrder_addProperty.mpr
      ⟨added owner (by simp [marks]), above, ofProperty⟩
  · obtain ⟨vars, body⟩ : program.InOrder := inOrder
    exact ⟨concat vars (by simp [marks, Program.marks, headerMarks, Position.marks])
      (by simp [marks, Program.marks]), body⟩
  · obtain ⟨parameters, locals, body⟩ : function.InOrder := inOrder
    have begun : Mark.line function.pos.line ∈ (OpenPou.function function).marks := by
      simp [marks, Function.marks, headerMarks, Position.marks]
    simp only [addVariable]
    split
    · exact ⟨concat parameters begun (by simp [marks, Function.marks]), locals, body⟩
    · have listed : function.locals.map Variable.mark ⊆ function.marks := fun mark isMark => by
        simp only [Function.marks, List.mem_append, isMark, or_true, true_or]
      exact ⟨parameters, concat locals begun listed, body⟩

theorem inOrder_foldl_addVariable {vs : List Variable} {last : Nat} (inOrder : pou.InOrder)
    (early : UpTo last pou.marks) (here : ∀ v ∈ vs, v.line = last) :
    (vs.foldl (fun pou v => pou.addVariable v) pou).InOrder := by
  induction vs generalizing pou with
  | nil => exact inOrder
  | cons v vs ih =>
    have first : v.line = last := here v List.mem_cons_self
    refine ih (inOrder_addVariable inOrder (first ▸ early)) ?_
      fun other isOther => here other (List.mem_cons_of_mem v isOther)
    have inside : (pou.addVariable v).marks ⊆ v.mark :: pou.marks :=
      marks_addVariable pou v (List.subset_cons_self _ _) List.mem_cons_self
    intro number named
    rcases List.mem_cons.mp (inside named) with isFirst | before
    · simp only [Variable.mark, Mark.line.injEq] at isFirst
      omega
    · exact early number before

theorem headerLine_setBody (body : Body) : (pou.setBody body).headerLine = pou.headerLine := by
  rcases pou with ⟨block, _ | (method | property)⟩ | program | function <;> rfl

theorem headerLine_le {last : Nat} (early : UpTo last pou.marks) : pou.headerLine ≤ last := by
  cases isOpen : pou.member? with
  | none =>
    have inside := pou.marks_pos (List.Subset.refl _)
    simpa [headerLine, isOpen] using early _ (inside (by simp [Position.marks]))
  | some member =>
    have inside := pou.marks_member_pos isOpen (List.Subset.refl _)
    simpa [headerLine, isOpen] using early _ (inside (by simp [Position.marks]))

theorem lineNumbers_le {last : Nat} (early : UpTo last pou.marks) :
    ∀ number ∈ lineNumbers pou.body.statements, number ≤ last := by
  intro number isNumber
  refine early number (pou.marks_body (List.Subset.refl _) ?_)
  simp [Body.marks, isNumber]

theorem unsupported_le {last : Nat} (early : UpTo last pou.marks) :
    ∀ entry ∈ pou.body.unsupported, entry.line ≤ last := by
  intro entry isEntry
  refine early _ (pou.marks_body (List.Subset.refl _) ?_)
  exact List.mem_append_right _ (List.mem_map.mpr ⟨entry, isEntry, rfl⟩)

theorem pos_of_identity {one other : OpenPou} (same : one.identity = other.identity) :
    one.pos = other.pos := by
  have pos := congrArg OpenPou.Identity.pos same
  cases one <;> cases other <;> exact pos

theorem headerLine_of_identity {one other : OpenPou} (same : one.identity = other.identity) :
    one.headerLine = other.headerLine := by
  have header (pou : OpenPou) : pou.headerLine =
      ((pou.identity.member.map fun member => member.2.2).getD pou.identity.pos).line := by
    rcases pou with ⟨block, _ | member⟩ | program | function <;> rfl
  rw [header, header, same]

end OpenPou

theorem Document.inOrder_iff (document : Document) :
    document.InOrder ↔
      Sequence (fun block => block.pos.line) FunctionBlock.InOrder 0 document.functionBlocks ∧
        Sequence (fun program => program.pos.line) Program.InOrder 0 document.programs ∧
          Sequence (fun function => function.pos.line) Function.InOrder 0 document.functions :=
  ⟨fun ⟨functionBlocks, programs, functions⟩ => ⟨functionBlocks, programs, functions⟩,
    fun ⟨functionBlocks, programs, functions⟩ => ⟨functionBlocks, programs, functions⟩⟩

theorem Document.inOrder_addPou {document : Document} {pou : OpenPou} :
    (document.addPou pou).InOrder ↔
      document.InOrder ∧ (∀ other ∈ document.pous pou.kind, other.pos.line ≤ pou.pos.line) ∧
        pou.InOrder := by
  have closed {block : FunctionBlock} (isBlock : pou.closeMember = .functionBlock block none)
      (kind : pou.kind = .functionBlock) (pos : pou.pos = block.pos) :
      (document.addPou pou).InOrder ↔
        document.InOrder ∧ (∀ other ∈ document.pous pou.kind, other.pos.line ≤ pou.pos.line) ∧
          pou.InOrder := by
    simp only [inOrder_iff, addPou, OpenPou.InOrder, isBlock, kind, pos, pous, List.forall_mem_map,
      Sequence.concat_iff, Nat.zero_le, true_and]
    tauto
  rcases pou with ⟨block, _ | member⟩ | program | function
  · exact closed rfl rfl rfl
  · exact closed rfl rfl (by cases member <;> rfl)
  · simp only [inOrder_iff, addPou, OpenPou.closeMember, OpenPou.InOrder, OpenPou.kind, OpenPou.pos,
      pous, List.forall_mem_map, Sequence.concat_iff, Nat.zero_le, true_and]
    tauto
  · simp only [inOrder_iff, addPou, OpenPou.closeMember, OpenPou.InOrder, OpenPou.kind, OpenPou.pos,
      pous, List.forall_mem_map, Sequence.concat_iff, Nat.zero_le, true_and]
    tauto

end StructuredText
