import Mathlib.Data.List.Induction
import StructuredText.Proofs.OpenConstruct

set_option autoImplicit false

namespace StructuredText

namespace State

def pou? (state : State) : Option OpenPou :=
  state.current.map Scopes.pou

def member? (state : State) : Option Member :=
  state.pou?.bind OpenPou.member?

def varSection? (state : State) : Option OpenSection :=
  state.current.bind Scopes.varSection

def builder (state : State) : Builder :=
  (state.current.map Scopes.builder).getD {}

def model (state : State) : Document :=
  match state.current with
  | none => state.document
  | some scopes => state.document.addPou scopes.pou

end State

def FunctionBlock.members (block : FunctionBlock) : Construct → List Member
  | .method => block.methods.map .method
  | .property => block.properties.map .property
  | _ => []

def stateAfter (done : List Step) : State :=
  State.run {} done

/-- The open POU is the last of its kind. It was opened by a header that stands among the fragments
read so far, when all POUs before it had been read, and it has kept the name of that header. -/
structure LastPou (done : List Step) (pou : OpenPou) (before after : List Step) (step : Step)
    (header : PouHeader) : Prop where
  split : done = before ++ step :: after
  opens : step.boundary? = some (.pou header)
  noneOpen : (stateAfter before).pou? = none
  kind : pou.kind = header.kind
  name : pou.name = header.name
  last : (stateAfter done).model.pous pou.kind =
    (stateAfter before).model.pous pou.kind ++ [pou.closeMember]

structure LastMember (done : List Step) (member : Member) (before after : List Step) (step : Step)
    (block placed : FunctionBlock) : Prop where
  split : done = before ++ step :: after
  opens : step.boundary?.bind Boundary.member? = some (member.construct, member.name)
  noneOpen : (stateAfter before).pou? = some (.functionBlock block none)
  owner : (stateAfter done).pou?.map OpenPou.closeMember = some (.functionBlock placed none)
  last : placed.members member.construct = block.members member.construct ++ [member]

structure Scopes.Sound (scopes : Scopes) : Prop where
  idle : scopes.varSection ≠ none → scopes.builder.pending = none
  tracks : ∃ cursor, scopes.builder.Tracks scopes.pou.body.statements cursor

namespace Scopes.Change

variable {step : Step} {scopes next : Scopes}

theorem sound (change : scopes.Change step next) (sound : scopes.Sound) : next.Sound := by
  obtain ⟨cursor, tracks⟩ := sound.tracks
  cases change with
  | varSection => exact ⟨fun _ => rfl, cursor, tracks.of_frames rfl⟩
  | amend pou identity body => exact ⟨sound.idle, cursor, by rw [body]; exact tracks⟩
  | feed outcome pou copiedLine idle fed identity body =>
    obtain ⟨after, follows, -⟩ := tracks.feed_written step.text step.pos
    refine ⟨fun isOpen => absurd idle isOpen, after, ?_⟩
    rw [body, fed]
    exact follows
  | openMember => exact ⟨fun isOpen => absurd rfl isOpen, _, .fresh _⟩
  | closeMember => exact ⟨fun isOpen => absurd rfl isOpen, _, .fresh _⟩

theorem kind_name_pos (change : scopes.Change step next) :
    next.pou.kind = scopes.pou.kind ∧ next.pou.name = scopes.pou.name ∧
      next.pou.pos = scopes.pou.pos := by
  have of_identity {one other : OpenPou} (same : one.identity = other.identity) :
      one.kind = other.kind ∧ one.name = other.name ∧ one.pos = other.pos := by
    have kind := congrArg OpenPou.Identity.kind same
    have name := congrArg OpenPou.Identity.name same
    have pos := congrArg OpenPou.Identity.pos same
    cases one <;> cases other <;> exact ⟨kind, name, pos⟩
  cases change with
  | varSection => exact ⟨rfl, rfl, rfl⟩
  | amend pou identity => exact of_identity identity
  | feed outcome pou copiedLine idle fed identity => exact of_identity identity
  | openMember block member owner =>
    rw [owner]
    exact ⟨rfl, rfl, rfl⟩
  | closeMember block member read owner =>
    rw [owner]
    cases member <;> exact ⟨rfl, rfl, rfl⟩

theorem member {block : FunctionBlock} {member : Member} (change : scopes.Change step next)
    (owner : next.pou = .functionBlock block (some member)) :
    (∃ earlier former, scopes.pou = .functionBlock earlier (some former) ∧
        former.construct = member.construct ∧ former.name = member.name ∧
        former.pos = member.pos ∧ earlier.methods = block.methods ∧
        earlier.properties = block.properties) ∨
      (step.boundary?.bind Boundary.member? = some (member.construct, member.name) ∧
        member.pos = step.pos ∧ scopes.pou = .functionBlock block none) := by
  have of_identity {pou : OpenPou} (same : pou.identity = scopes.pou.identity)
      (current : pou = .functionBlock block (some member)) :
      ∃ earlier former, scopes.pou = .functionBlock earlier (some former) ∧
        former.construct = member.construct ∧ former.name = member.name ∧
        former.pos = member.pos ∧ earlier.methods = block.methods ∧
        earlier.properties = block.properties := by
    rw [current] at same
    cases former : scopes.pou with
    | functionBlock earlier inner =>
      cases inner with
      | none => simp [former, OpenPou.identity] at same
      | some inner =>
        simp only [former, OpenPou.identity, OpenPou.Identity.mk.injEq, Option.map_some,
          Option.some.injEq, Prod.mk.injEq] at same
        obtain ⟨-, -, -, methods, properties, construct, name, pos⟩ := same
        exact ⟨earlier, inner, rfl, construct.symm, name.symm, pos.symm, methods.symm,
          properties.symm⟩
    | program p => simp [former, OpenPou.identity] at same
    | function f => simp [former, OpenPou.identity] at same
  cases change with
  | varSection => exact .inl (of_identity rfl owner)
  | amend pou identity => exact .inl (of_identity identity owner)
  | feed outcome pou copiedLine idle fed identity => exact .inl (of_identity identity owner)
  | openMember earlier opened former header pos =>
    cases owner
    exact .inr ⟨header, pos, former⟩
  | closeMember => cases owner

end Scopes.Change

structure Opened (done : List Step) (scopes : Scopes) : Prop where
  pou : ∃ before after step header, done = before ++ step :: after ∧
    step.boundary? = some (.pou header) ∧ (stateAfter before).current = none ∧
    scopes.pou.kind = header.kind ∧ scopes.pou.name = header.name ∧
    scopes.pou.pos = step.pos ∧
    (stateAfter done).document.pous = (stateAfter before).document.pous
  member : ∀ block member, scopes.pou = .functionBlock block (some member) →
    ∃ before after step opened, done = before ++ step :: after ∧
      step.boundary?.bind Boundary.member? = some (member.construct, member.name) ∧
      member.pos = step.pos ∧ (stateAfter before).pou? = some (.functionBlock opened none) ∧
      block.methods = opened.methods ∧ block.properties = opened.properties

theorem stateAfter_concat (done : List Step) (step : Step) :
    stateAfter (done ++ [step]) = (stateAfter done).step step := by
  simp [stateAfter]

theorem Opened.first {done : List Step} {step : Step} {header : PouHeader}
    (closed : (stateAfter done).current = none) (read : step.boundary? = some (.pou header))
    (pous : (stateAfter (done ++ [step])).document.pous = (stateAfter done).document.pous) :
    Opened (done ++ [step]) { pou := .ofHeader header step.pos } := by
  constructor
  · refine ⟨done, [], step, header, rfl, read, closed, ?_, ?_, ?_, pous⟩ <;>
      cases kind : header.kind <;>
        simp [OpenPou.ofHeader, kind, OpenPou.kind, OpenPou.name, OpenPou.pos]
  · intro block member owner
    cases kind : header.kind <;> simp [OpenPou.ofHeader, kind] at owner

theorem Opened.next {done : List Step} {step : Step} {scopes next : Scopes}
    (opened : Opened done scopes) (current : (stateAfter done).current = some scopes)
    (change : scopes.Change step next)
    (pous : (stateAfter (done ++ [step])).document.pous = (stateAfter done).document.pous) :
    Opened (done ++ [step]) next := by
  constructor
  · obtain ⟨before, after, first, header, split, read, closed, kind, name, pos, same⟩ := opened.pou
    obtain ⟨sameKind, sameName, samePos⟩ := change.kind_name_pos
    exact ⟨before, after ++ [step], first, header, by simp [split], read, closed,
      sameKind.trans kind, sameName.trans name, samePos.trans pos, pous.trans same⟩
  · intro block member owner
    rcases change.member owner with
      ⟨earlier, former, owned, construct, name, pos, methods, properties⟩ | ⟨header, pos, owned⟩
    · obtain ⟨before, after, first, start, split, read, place, wasOpen, sameMethods,
        sameProperties⟩ := opened.member earlier former owned
      exact ⟨before, after ++ [step], first, start, by simp [split],
        by rw [read, construct, name], pos.symm.trans place, wasOpen, methods ▸ sameMethods,
        properties ▸ sameProperties⟩
    · exact ⟨done, [], step, block, rfl, header, pos, by simp [State.pou?, current, owned], rfl,
        rfl⟩

theorem sound_opened (done : List Step) (scopes : Scopes)
    (current : (stateAfter done).current = some scopes) : scopes.Sound ∧ Opened done scopes := by
  induction done using List.reverseRecOn generalizing scopes with
  | nil => cases current
  | append_singleton done step ih =>
    rw [stateAfter_concat] at current
    cases before : (stateAfter done).current with
    | none =>
      obtain ⟨pous, closed | ⟨header, read, opens⟩⟩ := State.step_of_closed before step
      · rw [closed] at current
        cases current
      · obtain rfl : { pou := .ofHeader header step.pos } = scopes :=
          Option.some.inj (opens.symm.trans current)
        rw [← stateAfter_concat] at pous
        exact ⟨⟨fun isOpen => absurd rfl isOpen, _, .fresh _⟩, .first before read pous⟩
    | some earlier =>
      -- What was open before keeps its header unless the fragment opens or closes something.
      obtain ⟨sound, opened⟩ := ih earlier before
      rcases State.step_of_open before step with closed | ⟨pous, next, nextCurrent, change⟩
      · rw [closed] at current
        cases current
      · obtain rfl : next = scopes := Option.some.inj (nextCurrent.symm.trans current)
        rw [← stateAfter_concat] at pous
        exact ⟨change.sound sound, opened.next before change pous⟩

theorem Document.pous_addPou (document : Document) (pou : OpenPou) :
    (document.addPou pou).pous pou.kind = document.pous pou.kind ++ [pou.closeMember] := by
  cases pou with
  | functionBlock block member =>
    cases member <;> simp [addPou, pous, OpenPou.kind, OpenPou.closeMember]
  | program p => simp [addPou, pous, OpenPou.kind, OpenPou.closeMember]
  | function f => simp [addPou, pous, OpenPou.kind, OpenPou.closeMember]

theorem FunctionBlock.members_addMember (block : FunctionBlock) (member : Member) :
    (block.addMember member).members member.construct =
      block.members member.construct ++ [member] := by
  cases member <;> simp [addMember, members, Member.construct]

theorem OpenPou.kind_of_member {pou : OpenPou} (isOpen : pou.member? ≠ none) :
    pou.kind = .functionBlock := by
  cases pou with
  | functionBlock block member => rfl
  | program p => exact absurd rfl isOpen
  | function f => exact absurd rfl isOpen

theorem lastPou_at_header {done : List Step} {scopes : Scopes}
    (current : (stateAfter done).current = some scopes) :
    ∃ before after step header, LastPou done scopes.pou before after step header ∧
      scopes.pou.pos = step.pos := by
  obtain ⟨-, opened⟩ := sound_opened done scopes current
  obtain ⟨before, after, step, header, split, read, closed, kind, name, pos, same⟩ := opened.pou
  refine ⟨before, after, step, header,
    ⟨split, read, by simp [State.pou?, closed], kind, name, ?_⟩, pos⟩
  simp [State.model, current, closed, Document.pous_addPou, same]

theorem lastMember_at_header {done : List Step} {scopes : Scopes} {member : Member}
    (current : (stateAfter done).current = some scopes)
    (isOpen : scopes.pou.member? = some member) :
    ∃ before after step block placed,
      LastMember done member before after step block placed ∧ member.pos = step.pos := by
  obtain ⟨-, opened⟩ := sound_opened done scopes current
  cases owner : scopes.pou with
  | functionBlock block inner =>
    obtain rfl : inner = some member := by simpa [owner, OpenPou.member?] using isOpen
    obtain ⟨before, after, step, start, split, read, pos, wasOpen, methods, properties⟩ :=
      opened.member block member owner
    refine ⟨before, after, step, start, block.addMember member,
      ⟨split, read, wasOpen, ?_, ?_⟩, pos⟩
    · simp [State.pou?, current, owner, OpenPou.closeMember]
    · rw [FunctionBlock.members_addMember]
      cases member <;> simp [FunctionBlock.members, Member.construct, methods, properties]
  | program p => simp [owner, OpenPou.member?] at isOpen
  | function f => simp [owner, OpenPou.member?] at isOpen

end StructuredText
