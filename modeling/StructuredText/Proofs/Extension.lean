import StructuredText.Proofs.TreeNodes
import StructuredText.Proofs.VariableLists

set_option autoImplicit false

namespace StructuredText

def EachExtended {α : Type} (extended : α → α → Prop) (before after : List α) : Prop :=
  ∀ (index : Nat) (a : α), before[index]? = some a → ∃ b, after[index]? = some b ∧ extended a b

structure Body.ExtendedBy (before after : Body) : Prop where
  nodes : nodes before.statements <+: nodes after.statements
  unsupported : before.unsupported <+: after.unsupported

structure Method.ExtendedBy (before after : Method) : Prop where
  name : before.name = after.name
  returnType : before.returnType = after.returnType
  pos : before.pos = after.pos
  parameters : before.parameters <+: after.parameters
  locals : before.locals <+: after.locals
  body : before.body.ExtendedBy after.body
  implementation : before.implementation.toList <+: after.implementation.toList

structure Property.ExtendedBy (before after : Property) : Prop where
  name : before.name = after.name
  type : before.type = after.type
  pos : before.pos = after.pos
  getter : before.hasGetter = true → after.hasGetter = true
  setter : before.hasSetter = true → after.hasSetter = true
  body : before.body.ExtendedBy after.body
  implementation : before.implementation.toList <+: after.implementation.toList

structure FunctionBlock.ExtendedBy (before after : FunctionBlock) : Prop where
  name : before.name = after.name
  base : before.base = after.base
  interfaces : before.interfaces = after.interfaces
  pos : before.pos = after.pos
  vars : before.vars <+: after.vars
  methods : EachExtended Method.ExtendedBy before.methods after.methods
  properties : EachExtended Property.ExtendedBy before.properties after.properties
  body : before.body.ExtendedBy after.body

structure Program.ExtendedBy (before after : Program) : Prop where
  name : before.name = after.name
  pos : before.pos = after.pos
  vars : before.vars <+: after.vars
  body : before.body.ExtendedBy after.body

structure Function.ExtendedBy (before after : Function) : Prop where
  name : before.name = after.name
  returnType : before.returnType = after.returnType
  pos : before.pos = after.pos
  parameters : before.parameters <+: after.parameters
  locals : before.locals <+: after.locals
  body : before.body.ExtendedBy after.body

/-- Everything in a document is in the other one too, at the same place. Diagnostics are not
compared. -/
structure Document.ExtendedBy (before after : Document) : Prop where
  functionBlocks :
    EachExtended FunctionBlock.ExtendedBy before.functionBlocks after.functionBlocks
  programs : EachExtended Program.ExtendedBy before.programs after.programs
  functions : EachExtended Function.ExtendedBy before.functions after.functions

namespace EachExtended

variable {α : Type} {extended : α → α → Prop}

theorem append (refl : ∀ a, extended a a) (before more : List α) :
    EachExtended extended before (before ++ more) := by
  intro index a found
  obtain ⟨inside, -⟩ := List.getElem?_eq_some_iff.mp found
  exact ⟨a, by rw [List.getElem?_append_left inside, found], refl a⟩

theorem refl (refl : ∀ a, extended a a) (list : List α) : EachExtended extended list list := by
  simpa using append refl list []

theorem trans (trans : ∀ {a b c}, extended a b → extended b c → extended a c)
    {first second third : List α} (before : EachExtended extended first second)
    (after : EachExtended extended second third) : EachExtended extended first third := by
  intro index a found
  obtain ⟨b, there, grown⟩ := before index a found
  obtain ⟨c, still, more⟩ := after index b there
  exact ⟨c, still, trans grown more⟩

theorem last (refl : ∀ a, extended a a) (list : List α) {one other : α}
    (grown : extended one other) : EachExtended extended (list ++ [one]) (list ++ [other]) := by
  intro index a found
  rw [getElem?_concat] at found ⊢
  split
  · rename_i isLast
    rw [if_pos isLast] at found
    cases found
    exact ⟨other, rfl, grown⟩
  · rename_i earlier
    rw [if_neg earlier] at found
    exact ⟨a, found, refl a⟩

end EachExtended

namespace Body.ExtendedBy

theorem refl (body : Body) : body.ExtendedBy body :=
  ⟨List.prefix_rfl, List.prefix_rfl⟩

theorem trans {first second third : Body} (before : first.ExtendedBy second)
    (after : second.ExtendedBy third) : first.ExtendedBy third :=
  ⟨before.nodes.trans after.nodes, before.unsupported.trans after.unsupported⟩

end Body.ExtendedBy

namespace Method.ExtendedBy

theorem refl (method : Method) : method.ExtendedBy method :=
  ⟨rfl, rfl, rfl, List.prefix_rfl, List.prefix_rfl, .refl _, List.prefix_rfl⟩

theorem trans {first second third : Method} (before : first.ExtendedBy second)
    (after : second.ExtendedBy third) : first.ExtendedBy third where
  name := before.name.trans after.name
  returnType := before.returnType.trans after.returnType
  pos := before.pos.trans after.pos
  parameters := before.parameters.trans after.parameters
  locals := before.locals.trans after.locals
  body := before.body.trans after.body
  implementation := before.implementation.trans after.implementation

end Method.ExtendedBy

namespace Property.ExtendedBy

theorem refl (property : Property) : property.ExtendedBy property :=
  ⟨rfl, rfl, rfl, id, id, .refl _, List.prefix_rfl⟩

theorem trans {first second third : Property} (before : first.ExtendedBy second)
    (after : second.ExtendedBy third) : first.ExtendedBy third where
  name := before.name.trans after.name
  type := before.type.trans after.type
  pos := before.pos.trans after.pos
  getter := after.getter ∘ before.getter
  setter := after.setter ∘ before.setter
  body := before.body.trans after.body
  implementation := before.implementation.trans after.implementation

end Property.ExtendedBy

namespace FunctionBlock.ExtendedBy

theorem refl (block : FunctionBlock) : block.ExtendedBy block :=
  ⟨rfl, rfl, rfl, rfl, List.prefix_rfl, .refl .refl _, .refl .refl _, .refl _⟩

theorem trans {first second third : FunctionBlock} (before : first.ExtendedBy second)
    (after : second.ExtendedBy third) : first.ExtendedBy third where
  name := before.name.trans after.name
  base := before.base.trans after.base
  interfaces := before.interfaces.trans after.interfaces
  pos := before.pos.trans after.pos
  vars := before.vars.trans after.vars
  methods := before.methods.trans .trans after.methods
  properties := before.properties.trans .trans after.properties
  body := before.body.trans after.body

end FunctionBlock.ExtendedBy

namespace Program.ExtendedBy

theorem refl (program : Program) : program.ExtendedBy program :=
  ⟨rfl, rfl, List.prefix_rfl, .refl _⟩

theorem trans {first second third : Program} (before : first.ExtendedBy second)
    (after : second.ExtendedBy third) : first.ExtendedBy third where
  name := before.name.trans after.name
  pos := before.pos.trans after.pos
  vars := before.vars.trans after.vars
  body := before.body.trans after.body

end Program.ExtendedBy

namespace Function.ExtendedBy

theorem refl (function : Function) : function.ExtendedBy function :=
  ⟨rfl, rfl, rfl, List.prefix_rfl, List.prefix_rfl, .refl _⟩

theorem trans {first second third : Function} (before : first.ExtendedBy second)
    (after : second.ExtendedBy third) : first.ExtendedBy third where
  name := before.name.trans after.name
  returnType := before.returnType.trans after.returnType
  pos := before.pos.trans after.pos
  parameters := before.parameters.trans after.parameters
  locals := before.locals.trans after.locals
  body := before.body.trans after.body

end Function.ExtendedBy

namespace Document.ExtendedBy

theorem refl (document : Document) : document.ExtendedBy document :=
  ⟨.refl .refl _, .refl .refl _, .refl .refl _⟩

theorem trans {first second third : Document} (before : first.ExtendedBy second)
    (after : second.ExtendedBy third) : first.ExtendedBy third where
  functionBlocks := before.functionBlocks.trans .trans after.functionBlocks
  programs := before.programs.trans .trans after.programs
  functions := before.functions.trans .trans after.functions

theorem unreported_iff {before after : Document} :
    before.unreported.ExtendedBy after.unreported ↔ before.ExtendedBy after :=
  ⟨fun ⟨functionBlocks, programs, functions⟩ => ⟨functionBlocks, programs, functions⟩,
    fun ⟨functionBlocks, programs, functions⟩ => ⟨functionBlocks, programs, functions⟩⟩

theorem addPou (document : Document) (pou : OpenPou) :
    document.ExtendedBy (document.addPou pou) := by
  unfold Document.addPou
  split
  · exact ⟨.append .refl _ _, .refl .refl _, .refl .refl _⟩
  · exact ⟨.refl .refl _, .append .refl _ _, .refl .refl _⟩
  · exact ⟨.refl .refl _, .refl .refl _, .append .refl _ _⟩

end Document.ExtendedBy

namespace OpenPou

def ExtendedBy (before after : OpenPou) : Prop :=
  ∀ document : Document, (document.addPou before).ExtendedBy (document.addPou after)

theorem ExtendedBy.refl (pou : OpenPou) : pou.ExtendedBy pou :=
  fun document => .refl (document.addPou pou)

theorem ExtendedBy.trans {first second third : OpenPou} (before : first.ExtendedBy second)
    (after : second.ExtendedBy third) : first.ExtendedBy third :=
  fun document => (before document).trans (after document)

theorem extendedBy_program {one other : Program} (extended : one.ExtendedBy other) :
    (program one).ExtendedBy (program other) :=
  fun _ => ⟨.refl .refl _, .last .refl _ extended, .refl .refl _⟩

theorem extendedBy_function {one other : Function} (extended : one.ExtendedBy other) :
    (function one).ExtendedBy (function other) :=
  fun _ => ⟨.refl .refl _, .refl .refl _, .last .refl _ extended⟩

theorem extendedBy_closed {one other : OpenPou} {block next : FunctionBlock}
    (isBlock : one.closeMember = functionBlock block none)
    (isNext : other.closeMember = functionBlock next none) (extended : block.ExtendedBy next) :
    one.ExtendedBy other := by
  intro document
  simp only [Document.addPou, isBlock, isNext]
  exact ⟨.last .refl _ extended, .refl .refl _, .refl .refl _⟩

theorem extendedBy_method (block : FunctionBlock) {one other : Method}
    (extended : one.ExtendedBy other) :
    (functionBlock block (some (.method one))).ExtendedBy
      (functionBlock block (some (.method other))) :=
  extendedBy_closed rfl rfl
    { FunctionBlock.ExtendedBy.refl block with methods := .last .refl _ extended }

theorem extendedBy_property (block : FunctionBlock) {one other : Property}
    (extended : one.ExtendedBy other) :
    (functionBlock block (some (.property one))).ExtendedBy
      (functionBlock block (some (.property other))) :=
  extendedBy_closed rfl rfl
    { FunctionBlock.ExtendedBy.refl block with properties := .last .refl _ extended }

theorem extendedBy_member (block : FunctionBlock) (member : Member) :
    (functionBlock block none).ExtendedBy (functionBlock block (some member)) := by
  have whole := FunctionBlock.ExtendedBy.refl block
  cases member with
  | method method =>
    exact extendedBy_closed rfl rfl { whole with methods := .append .refl _ _ }
  | property property =>
    exact extendedBy_closed rfl rfl { whole with properties := .append .refl _ _ }

theorem extendedBy_setBody (pou : OpenPou) {body : Body} (extended : pou.body.ExtendedBy body) :
    pou.ExtendedBy (pou.setBody body) := by
  rcases pou with ⟨block, _ | (method | property)⟩ | program | function
  · exact extendedBy_closed rfl rfl { FunctionBlock.ExtendedBy.refl block with body := extended }
  · exact extendedBy_method block { Method.ExtendedBy.refl method with body := extended }
  · exact extendedBy_property block { Property.ExtendedBy.refl property with body := extended }
  · exact extendedBy_program { Program.ExtendedBy.refl program with body := extended }
  · exact extendedBy_function { Function.ExtendedBy.refl function with body := extended }

theorem extendedBy_setMember {pou : OpenPou} {member : Member} (isOpen : pou.member? = some member)
    (text : String) : pou.ExtendedBy (pou.setMember (some (member.addImplementation text))) := by
  cases pou with
  | functionBlock block inner =>
    obtain rfl : inner = some member := isOpen
    cases member with
    | method method =>
      exact extendedBy_method block
        { Method.ExtendedBy.refl method with implementation := by simp }
    | property property =>
      exact extendedBy_property block
        { Property.ExtendedBy.refl property with implementation := by simp }
  | program p => cases isOpen
  | function f => cases isOpen

theorem extendedBy_addVariable (pou : OpenPou) (v : Variable) :
    pou.ExtendedBy (pou.addVariable v) := by
  have added (block : FunctionBlock) : block.ExtendedBy (block.addVariable v) :=
    { FunctionBlock.ExtendedBy.refl block with vars := List.prefix_append _ _ }
  rcases pou with ⟨block, _ | (method | property)⟩ | program | function
  · exact extendedBy_closed rfl rfl (added block)
  · simp only [addVariable]
    split
    · exact extendedBy_method block
        { Method.ExtendedBy.refl method with locals := List.prefix_append _ _ }
    · exact extendedBy_closed rfl rfl (added (block.addMember (.method method)))
  · exact extendedBy_closed rfl rfl (added (block.addMember (.property property)))
  · exact extendedBy_program
      { Program.ExtendedBy.refl program with vars := List.prefix_append _ _ }
  · simp only [addVariable]
    split
    · exact extendedBy_function
        { Function.ExtendedBy.refl function with parameters := List.prefix_append _ _ }
    · exact extendedBy_function
        { Function.ExtendedBy.refl function with locals := List.prefix_append _ _ }

theorem extendedBy_foldl_addVariable (pou : OpenPou) (vs : List Variable) :
    pou.ExtendedBy (vs.foldl (fun pou v => pou.addVariable v) pou) := by
  induction vs generalizing pou with
  | nil => exact .refl pou
  | cons v vs ih => exact (pou.extendedBy_addVariable v).trans (ih _)

theorem extendedBy_withAccessor {pou next : OpenPou} {accessor : Accessor}
    (amended : pou.withAccessor? accessor = some next) : pou.ExtendedBy next := by
  rcases pou with ⟨block, _ | (method | property)⟩ | program | function
  all_goals cases amended
  have whole := Property.ExtendedBy.refl property
  cases accessor with
  | get => exact extendedBy_property block { whole with getter := fun _ => rfl }
  | set => exact extendedBy_property block { whole with setter := fun _ => rfl }

end OpenPou

namespace Scopes

variable {scopes : Scopes}

theorem extendedBy_recordUnsupported (scopes : Scopes) (text : List Char) (line : SourceLine) :
    scopes.pou.ExtendedBy (State.recordUnsupported scopes text line).pou := by
  let entry : Unsupported := ⟨String.ofList text, line.number⟩
  let body := { scopes.pou.body with unsupported := scopes.pou.body.unsupported ++ [entry] }
  have recorded : scopes.pou.ExtendedBy (scopes.pou.setBody body) :=
    scopes.pou.extendedBy_setBody ⟨List.prefix_rfl, List.prefix_append _ _⟩
  simp only [State.recordUnsupported]
  split
  · exact recorded
  · rename_i member isOpen
    split
    · exact recorded
    · exact recorded.trans (OpenPou.extendedBy_setMember isOpen _)

theorem extendedBy_withCode (sound : scopes.Sound) (step : Step) :
    scopes.pou.ExtendedBy (scopes.withCode step) := by
  obtain ⟨cursor, tracks⟩ := sound.tracks
  obtain ⟨added, grown, -⟩ := tracks.nodes_feed step.text step.pos
  let outcome := scopes.builder.feed scopes.pou.body.statements step.text step.pos
  let next : Scopes :=
    { scopes with
      pou := scopes.pou.setBody { scopes.pou.body with statements := outcome.root }
      builder := outcome.builder }
  have fed : scopes.pou.ExtendedBy next.pou :=
    scopes.pou.extendedBy_setBody ⟨⟨_, grown.symm⟩, List.prefix_rfl⟩
  unfold withCode
  simp only
  split
  · exact fed.trans (extendedBy_recordUnsupported next _ _)
  · exact fed

theorem extendedBy_of_revises (sound : scopes.Sound) {step : Step} {next : OpenPou}
    (revises : scopes.Revises step (some next)) : scopes.pou.ExtendedBy next := by
  cases revises with
  | method read owner =>
    rw [owner]
    exact OpenPou.extendedBy_member _ _
  | property read owner =>
    rw [owner]
    exact OpenPou.extendedBy_member _ _
  | declaration noBoundary inSection =>
    unfold withVariables
    split
    · exact .refl _
    · exact scopes.pou.extendedBy_foldl_addVariable _
  | accessor noBoundary noSection amended =>
    obtain ⟨_, -, isAmended⟩ := Option.bind_eq_some_iff.mp amended
    exact OpenPou.extendedBy_withAccessor isAmended
  | code code => exact extendedBy_withCode sound step

end Scopes

namespace State

theorem extendedBy_step {state : State}
    (sound : ∀ scopes, state.current = some scopes → scopes.Sound) (step : Step) :
    state.model.ExtendedBy (state.step step).model := by
  rw [← Document.ExtendedBy.unreported_iff]
  rw [unreported_step]
  cases current : state.current with
  | none =>
    have model : state.model = state.document := by simp [State.model, current]
    rcases revision_of_closed current step with none | ⟨header, opens⟩
    · rw [none]
      exact .refl _
    · rw [opens, model, Option.elim_some, Document.unreported_addPou]
      exact .addPou ..
  | some scopes =>
    have revises := revision_of_open current step
    cases revision : state.revision? step with
    | none => exact .refl _
    | some next =>
      rw [revision] at revises
      rw [model_of_open current, Option.elim_some, Document.unreported_addPou,
        Document.unreported_addPou]
      exact Scopes.extendedBy_of_revises (sound scopes current) revises _

theorem extendedBy_stateAfter (done more : List Step) :
    (stateAfter done).model.ExtendedBy (stateAfter (done ++ more)).model := by
  induction more using List.reverseRecOn with
  | nil => simpa using .refl _
  | append_singleton more step ih =>
    rw [← List.append_assoc, stateAfter_concat]
    exact ih.trans (extendedBy_step (fun scopes current => (sound_opened _ scopes current).1) step)

theorem unreported_finish (state : State) : state.finish.unreported = state.model.unreported := by
  cases current : state.current with
  | none => simp [finish, model, current]
  | some scopes => simp [finish, closePou, model, current]

end State

theorem stepsFrom_append (count : Nat) (carried : Option OpenComment)
    (raws others : List (List Char)) :
    stepsFrom count carried (raws ++ others) =
      stepsFrom count carried raws ++
        stepsFrom (count + raws.length) (stripLines count carried raws).2 others := by
  induction raws generalizing count carried with
  | nil => rfl
  | cons raw raws ih =>
    have next : count + 1 + raws.length = count + (raws.length + 1) := by omega
    simp only [List.cons_append, stepsFrom, stripLines, ih, List.append_assoc, List.length_cons,
      next]

theorem unreported_parse (source : String) :
    (parse source).unreported = (stateAfter (steps source)).model.unreported := by
  obtain ⟨unterminated, -, result⟩ := parse_eq_run source
  rw [result, Document.unreported_report, State.unreported_finish]
  rfl

theorem parse_extendedBy {before : String}
    (ends : before = "" ∨ before.toList.getLast? = some '\n') (after : String) :
    (parse before).ExtendedBy (parse (before ++ after)) := by
  have ended : before.toList = [] ∨ before.toList.getLast? = some '\n' := by simpa using ends
  have split := stepsFrom_append 0 none (lines before.toList) (lines after.toList)
  rw [← lines_append_of_newline ended, ← String.toList_append, ← steps, ← steps] at split
  rw [← Document.ExtendedBy.unreported_iff, unreported_parse, unreported_parse, split,
    Document.ExtendedBy.unreported_iff]
  exact State.extendedBy_stateAfter (steps before) _

def openProperty : String :=
  "FUNCTION_BLOCK F\nPROPERTY P : INT\nGET\nIF a THEN\n  x := 1 +\n"

theorem parse_openProperty_extendedBy :
    openProperty.toList.getLast? = some '\n' ∧
      (parse openProperty).ExtendedBy
        (parse (openProperty ++ "    2;\nELSE\n  f();\nEND_IF\nSET\nEND_PROPERTY\n")) := by
  have ends : openProperty.toList.getLast? = some '\n' := by decide +kernel
  exact ⟨ends, parse_extendedBy (.inr ends) _⟩

end StructuredText
