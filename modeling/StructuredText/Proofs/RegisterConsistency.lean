import StructuredText.Proofs.Registers

set_option autoImplicit false

namespace StructuredText

def Document.names (document : Document) : PouKind → List String
  | .functionBlock => document.functionBlocks.map FunctionBlock.name
  | .program => document.programs.map Program.name
  | .function => document.functions.map Function.name

def FunctionBlock.memberNames (block : FunctionBlock) : Construct → List String
  | .method => block.methods.map Method.name
  | .property => block.properties.map Property.name
  | .functionBlock | .program | .function => []

def IsLast (names : List String) (index : Nat) (name : String) : Prop :=
  index + 1 = names.length ∧ names[index]? = some name

inductive ActiveBody (document : Document) (pou : PouRegister) :
    Option MemberRegister → Body → Prop where
  | method {member : MemberRegister} {block : FunctionBlock} {method : Method}
    (kind : pou.kind = .functionBlock) (isMethod : member.kind = .method)
    (owner : document.functionBlocks[pou.index]? = some block)
    (found : block.methods[member.index]? = some method) :
    ActiveBody document pou (some member) method.body
  | property {member : MemberRegister} {block : FunctionBlock} {property : Property}
    (kind : pou.kind = .functionBlock) (isProperty : member.kind = .property)
    (owner : document.functionBlocks[pou.index]? = some block)
    (found : block.properties[member.index]? = some property) :
    ActiveBody document pou (some member) property.body
  | functionBlock {block : FunctionBlock} (kind : pou.kind = .functionBlock)
    (found : document.functionBlocks[pou.index]? = some block) :
    ActiveBody document pou none block.body
  | program {program : Program} (kind : pou.kind = .program)
    (found : document.programs[pou.index]? = some program) :
    ActiveBody document pou none program.body
  | function {function : Function} (kind : pou.kind = .function)
    (found : document.functions[pou.index]? = some function) :
    ActiveBody document pou none function.body

structure Registers.Found (registers : Registers) (pou : PouRegister) : Prop where
  target : ∃ target, registers.document.bodyTarget? pou registers.member = some target ∧
    ActiveBody registers.document pou registers.member target.body
  branch : ∀ target, registers.document.bodyTarget? pou registers.member = some target →
    ∀ change : List Statement → List Statement × Nat, ∃ after,
      Statement.modifyAt? (fun statements => some (change statements)) registers.builder.path
        target.body.statements = some after
  conditional : ∀ target, registers.document.bodyTarget? pou registers.member = some target →
    registers.builder.frames ≠ [] → ∀ change : Conditional → Conditional × Branch,
      ∃ after, registers.builder.modifyTop? change target.body.statements = some after
  sink : ∀ declared : List Variable,
    ((declared.foldl Registers.addVariable registers).variableSink?).isSome
  owner : ∀ kind after owner, registers.dropPending.memberOwner kind = .ok (after, owner) →
    (after.document.functionBlocks[owner]?).isSome
  property : ∀ member, registers.member = some member → member.kind = .property →
    registers.openProperty?.isSome

structure Registers.Consistent (registers : Registers) : Prop where
  member_in_block : registers.member ≠ none →
    registers.pou.map PouRegister.kind = some .functionBlock
  inside_pou : registers.varSection ≠ none ∨ registers.builder.frames ≠ [] ∨
    registers.builder.blocks ≠ [] ∨ registers.builder.pending ≠ none → registers.pou ≠ none
  pou_last : ∀ pou, registers.pou = some pou →
    IsLast (registers.document.names pou.kind) pou.index pou.name
  member_last : ∀ pou member, registers.pou = some pou → registers.member = some member →
    ∃ block, registers.document.functionBlocks[pou.index]? = some block ∧
      IsLast (block.memberNames member.kind) member.index member.name
  section_idle : registers.varSection ≠ none → registers.builder.pending = none
  frames_resolve : ∀ pou, registers.pou = some pou →
    ∃ body, ActiveBody registers.document pou registers.member body ∧
      Resolves registers.builder.frames body.statements
  found : ∀ pou, registers.pou = some pou → registers.Found pou

namespace OpenPou

variable (pou : OpenPou) (closed : Document)

theorem activeBody :
    ActiveBody (closed.addPou pou).unreported (pou.identity.register closed)
      pou.identity.memberRegister? pou.body := by
  rcases pou with ⟨block, _ | (method | property)⟩ | program | function
  · exact .functionBlock rfl (by simp [register_eq, kind, Document.pous])
  · exact .method rfl rfl (by simp [register_eq, kind, Document.pous])
      (block.method_addMember method)
  · exact .property rfl rfl (by simp [register_eq, kind, Document.pous])
      (block.property_addMember property)
  · exact .program rfl (by simp [register_eq, kind, Document.pous])
  · exact .function rfl (by simp [register_eq, kind, Document.pous])

theorem isLast_register :
    IsLast ((closed.addPou pou).unreported.names (pou.identity.register closed).kind)
      (pou.identity.register closed).index (pou.identity.register closed).name := by
  rcases pou with ⟨block, _ | (method | property)⟩ | program | function <;>
    simp [IsLast, Document.names, register_eq, kind, name, Document.addPou, closeMember,
      FunctionBlock.addMember, Document.unreported, Document.pous]

theorem isLast_memberRegister {pou : OpenPou} {member : MemberRegister}
    (isOpen : pou.identity.memberRegister? = some member) :
    ∃ block, (closed.addPou pou).unreported.functionBlocks[
        (pou.identity.register closed).index]? = some block ∧
      IsLast (block.memberNames member.kind) member.index member.name := by
  rcases pou with ⟨block, _ | (method | property)⟩ | program | function
  all_goals cases isOpen
  · refine ⟨block.addMember (.method method), by simp [register_eq, kind, Document.pous], ?_⟩
    simp [IsLast, FunctionBlock.memberNames, FunctionBlock.addMember, identity, Member.construct,
      Member.name]
  · refine ⟨block.addMember (.property property), by simp [register_eq, kind, Document.pous], ?_⟩
    simp [IsLast, FunctionBlock.memberNames, FunctionBlock.addMember, identity, Member.construct,
      Member.name]

end OpenPou

namespace Scopes

variable {scopes : Scopes}

theorem foldl_addVariable_vars (closed : Document) (vs : List Variable) :
    vs.foldl Registers.addVariable (scopes.registers closed) =
      Scopes.registers { scopes with pou := vs.foldl (fun pou v => pou.addVariable v) scopes.pou }
        closed :=
  scopes.foldl_addVariable_registers closed id vs

theorem Sound.branch_found (sound : scopes.Sound)
    (change : List Statement → List Statement × Nat) :
    ∃ after, Statement.modifyAt? (fun statements => some (change statements)) scopes.builder.path
      scopes.pou.body.statements = some after := by
  obtain ⟨cursor, tracks⟩ := sound.tracks
  rw [tracks.path, tracks.root, Cursor.root, modifyAt?_fill]
  exact ⟨_, rfl⟩

theorem Sound.conditional_found (sound : scopes.Sound) (isOpen : scopes.builder.frames ≠ [])
    (change : Conditional → Conditional × Branch) :
    ∃ after, scopes.builder.modifyTop? change scopes.pou.body.statements = some after := by
  obtain ⟨cursor, tracks⟩ := sound.tracks
  rcases List.eq_nil_or_concat cursor.ifs with none | ⟨outer, opened, shape⟩
  · exact absurd (by simpa [none] using tracks.frames) isOpen
  · exact ⟨_, tracks.modifyTop?_eq (shape.trans (List.concat_eq_append ..)) change⟩

end Scopes

theorem State.owner_found (state : State) {kind : Construct} {after : Registers} {owner : Nat}
    (isOwner : state.registers.memberOwner kind = .ok (after, owner)) :
    (after.document.functionBlocks[owner]?).isSome := by
  cases free : state.freeBlock? with
  | none =>
    obtain ⟨problem, noOwner, -⟩ := state.memberOwner_refused free kind
    rw [noOwner] at isOwner
    cases isOwner
  | some block =>
    obtain ⟨scopes, current, opened⟩ := state.freeBlock?_eq_some free
    rw [state.memberOwner_free current opened] at isOwner
    cases isOwner
    rw [Scopes.registers_document, opened, Document.block_report_addPou]
    rfl

theorem Scopes.property?_isSome {scopes : Scopes} {closed : Document} {member : MemberRegister}
    (isOpen : (scopes.registers closed).member = some member)
    (isProperty : member.kind = .property) : (scopes.property? closed).isSome := by
  rcases owner : scopes.pou with ⟨block, _ | (method | property)⟩ | program | function <;>
    simp only [Scopes.registers_member, owner] at isOpen
  all_goals cases isOpen
  · cases isProperty
  · simp [Scopes.property?, owner]

theorem State.registers_found {state : State} {scopes : Scopes}
    (current : state.current = some scopes) (sound : scopes.Sound) :
    state.registers.Found (scopes.pou.identity.register state.document) := by
  have registers := registers_of_current current
  have target (target : BodyTarget)
      (isTarget : state.registers.document.bodyTarget? (scopes.pou.identity.register state.document)
        state.registers.member = some target) : target = scopes.pou.target state.document := by
    rw [registers, Scopes.registers_document, Scopes.registers_member,
      OpenPou.bodyTarget?_eq] at isTarget
    exact (Option.some.inj isTarget).symm
  constructor
  · rw [registers]
    exact ⟨_, scopes.pou.bodyTarget?_eq state.document, scopes.pou.activeBody state.document⟩
  · intro other isTarget change
    rw [target other isTarget, registers]
    exact sound.branch_found change
  · intro other isTarget frames change
    rw [registers] at frames
    rw [target other isTarget, registers]
    exact sound.conditional_found frames change
  · intro declared
    rw [registers, Scopes.foldl_addVariable_vars, Scopes.variableSink?_eq]
    rfl
  · intro kind after owner isOwner
    rw [← registers_dropPending] at isOwner
    exact state.dropPending.owner_found isOwner
  · intro member isOpen isProperty
    rw [registers] at isOpen ⊢
    rw [Scopes.openProperty?_eq]
    exact scopes.property?_isSome isOpen isProperty

theorem consistent_stateAfter (done : List Step) : (stateAfter done).registers.Consistent := by
  cases current : (stateAfter done).current with
  | none =>
    have registers := State.registers_of_closed current
    constructor <;> simp [registers]
  | some scopes =>
    have registers := State.registers_of_current current
    -- The invariants of the run carry over, since the registers are those of the state.
    obtain ⟨sound, -⟩ := sound_opened done scopes current
    obtain ⟨cursor, tracks⟩ := sound.tracks
    have pou (pou : PouRegister) (isOpen : (stateAfter done).registers.pou = some pou) :
        pou = scopes.pou.identity.register (stateAfter done).document := by
      rw [registers] at isOpen
      exact (Option.some.inj isOpen).symm
    constructor
    · intro isOpen
      rw [registers] at isOpen ⊢
      rw [Scopes.registers_pou, OpenPou.register_eq, Option.map_some]
      exact congrArg some (OpenPou.kind_of_member fun closed =>
        isOpen (OpenPou.memberRegister?_none closed))
    · intro _
      simp [registers]
    · intro other isOpen
      rw [pou other isOpen, registers]
      exact scopes.pou.isLast_register _
    · intro other member isPou isOpen
      rw [pou other isPou, registers]
      rw [registers] at isOpen
      exact OpenPou.isLast_memberRegister _ isOpen
    · rw [registers]
      exact sound.idle
    · intro other isOpen
      rw [pou other isOpen, registers]
      exact ⟨scopes.pou.body, scopes.pou.activeBody _, tracks.resolves⟩
    · intro other isOpen
      rw [pou other isOpen]
      exact State.registers_found current sound

theorem registers_consistent (source : String) :
    parse source = (Registers.run {} (steps source)).finish (lines source.toList).length
      (stripLines 0 none (lines source.toList)).2 ∧
    ∀ n, (Registers.run {} ((steps source).take n)).Consistent := by
  have registers (done : List Step) : Registers.run {} done = (stateAfter done).registers :=
    (State.registers_run {} done).symm
  constructor
  · rw [registers, State.registers_finish, parse_eq_parseLines, parseLines_eq_run,
      StructuredText.unterminated, Nat.zero_add]
    rfl
  · intro n
    rw [registers]
    exact consistent_stateAfter _

end StructuredText
