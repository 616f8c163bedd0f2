import StructuredText.Proofs.OpenConstruct
import StructuredText.Proofs.Rewriting

set_option autoImplicit false

namespace StructuredText

def Body.skeleton (body : Body) : Body :=
  { statements := withoutNumbers body.statements }

def Method.skeleton (method : Method) : Method :=
  { name := method.name, returnType := method.returnType, parameters := [],
    body := method.body.skeleton, pos := ⟨0, 0⟩ }

def Property.skeleton (property : Property) : Property :=
  { name := property.name, type := property.type, hasGetter := property.hasGetter,
    hasSetter := property.hasSetter, body := property.body.skeleton, pos := ⟨0, 0⟩ }

def Member.skeleton : Member → Member
  | method m => method m.skeleton
  | property p => property p.skeleton

def FunctionBlock.skeleton (block : FunctionBlock) : FunctionBlock :=
  { name := block.name, base := none, interfaces := [],
    methods := block.methods.map Method.skeleton,
    properties := block.properties.map Property.skeleton,
    body := block.body.skeleton, pos := ⟨0, 0⟩ }

def Program.skeleton (program : Program) : Program :=
  { name := program.name, body := program.body.skeleton, pos := ⟨0, 0⟩ }

def Function.skeleton (function : Function) : Function :=
  { name := function.name, returnType := function.returnType, body := function.body.skeleton,
    pos := ⟨0, 0⟩ }

def OpenPou.skeleton : OpenPou → OpenPou
  | functionBlock block member => functionBlock block.skeleton (member.map Member.skeleton)
  | program p => program p.skeleton
  | function f => function f.skeleton

theorem FunctionBlock.skeleton_addMember (block : FunctionBlock) (member : Member) :
    (block.addMember member).skeleton = block.skeleton.addMember member.skeleton := by
  cases member <;> simp [addMember, skeleton, Member.skeleton]

theorem FunctionBlock.foldl_addMember (block : FunctionBlock) (methods : List Method)
    (properties : List Property) :
    (methods.map Member.method ++ properties.map Member.property).foldl addMember block =
      { block with
        methods := block.methods ++ methods
        properties := block.properties ++ properties } := by
  have ofProperties (block : FunctionBlock) :
      (properties.map Member.property).foldl addMember block =
        { block with properties := block.properties ++ properties } := by
    induction properties generalizing block with
    | nil => simp
    | cons property properties ih => simp [ih, addMember]
  induction methods generalizing block with
  | nil => simpa using ofProperties block
  | cons method methods ih => simp [ih, addMember]

namespace OpenPou

theorem skeleton_setBody (pou : OpenPou) (body : Body) :
    (pou.setBody body).skeleton = pou.skeleton.setBody body.skeleton := by
  rcases pou with ⟨block, _ | (method | property)⟩ | program | function <;> rfl

theorem body_skeleton (pou : OpenPou) : pou.skeleton.body = pou.body.skeleton := by
  rcases pou with ⟨block, _ | (method | property)⟩ | program | function <;> rfl

theorem member?_skeleton (pou : OpenPou) :
    pou.skeleton.member? = pou.member?.map Member.skeleton := by
  cases pou <;> rfl

theorem skeleton_addVariable (pou : OpenPou) (v : Variable) :
    (pou.addVariable v).skeleton = pou.skeleton := by
  rcases pou with ⟨block, _ | (method | property)⟩ | program | function
  · rfl
  · simp only [addVariable]
    split <;> rfl
  · rfl
  · rfl
  · simp only [addVariable]
    split <;> rfl

theorem skeleton_setMember {pou : OpenPou} {member : Member} (isOpen : pou.member? = some member)
    (text : String) :
    (pou.setMember (some (member.addImplementation text))).skeleton = pou.skeleton := by
  cases pou with
  | functionBlock block inner =>
    obtain rfl : inner = some member := isOpen
    cases member <;> rfl
  | program p => cases isOpen
  | function f => cases isOpen

theorem skeleton_closeMember (pou : OpenPou) :
    pou.closeMember.skeleton = pou.skeleton.closeMember := by
  rcases pou with ⟨block, _ | member⟩ | program | function
  · rfl
  · simp [closeMember, skeleton, FunctionBlock.skeleton_addMember]
  · rfl
  · rfl

end OpenPou

theorem State.skeleton_recordUnsupported (scopes : Scopes) (text : List Char) (line : SourceLine) :
    ∃ pou copiedLine, recordUnsupported scopes text line = { scopes with pou, copiedLine } ∧
      pou.skeleton = scopes.pou.skeleton ∧ pou.body.statements = scopes.pou.body.statements := by
  let entry : Unsupported := ⟨String.ofList text, line.number⟩
  let body := { scopes.pou.body with unsupported := scopes.pou.body.unsupported ++ [entry] }
  have skeleton : (scopes.pou.setBody body).skeleton = scopes.pou.skeleton := by
    rw [OpenPou.skeleton_setBody]
    exact scopes.pou.body_skeleton ▸ scopes.pou.skeleton.setBody_body
  simp only [recordUnsupported]
  split
  · exact ⟨_, scopes.copiedLine, rfl, skeleton, by simp⟩
  · rename_i member isOpen
    split
    · exact ⟨_, scopes.copiedLine, rfl, skeleton, by simp⟩
    · obtain ⟨-, sameBody⟩ := OpenPou.setMember_same isOpen (String.ofList (trim line.raw) ++ "\n")
      exact ⟨_, _, rfl, (OpenPou.skeleton_setMember isOpen _).trans skeleton, by simp [sameBody]⟩

end StructuredText
