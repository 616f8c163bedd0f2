import StructuredText.PlcOpen.Export
import StructuredText.Proofs.MemberLines

set_option autoImplicit false

namespace StructuredText

structure Method.IsPlain (method : Method) : Prop where
  name : PlainName method.name.toList
  returnType : ∀ type ∈ method.returnType, PlainType type.toList
  vars : ∀ v ∈ method.parameters ++ method.locals, v.IsPlain
  body : method.body.IsPlain method.implementation

structure Property.IsPlain (property : Property) : Prop where
  name : PlainName property.name.toList
  type : PlainType property.type.toList
  body : property.body.IsPlain property.implementation

structure FunctionBlock.IsPlain (block : FunctionBlock) : Prop where
  name : PlainName block.name.toList
  statements : AreInline block.body.statements
  methods : ∀ method ∈ block.methods, method.IsPlain
  properties : ∀ property ∈ block.properties, property.IsPlain

def FunctionBlock.source (block : FunctionBlock) (indent : String) : String :=
  "FUNCTION_BLOCK " ++ block.name ++ "\n" ++ (PlcOpen.Entry.ofFunctionBlock indent block).body ++
    "END_FUNCTION_BLOCK\n"

namespace Member

def IsPlain : Member → Prop
  | method m => m.IsPlain
  | property p => p.IsPlain

def lines (indent : String) : Member → List String
  | method m => m.lines indent
  | property p => p.lines indent

def openingLines (indent : String) : Member → List String
  | method m =>
    ("METHOD " ++ m.name ++ (m.returnType.map (" : " ++ ·)).getD "") ::
      sectionLines (m.parameters ++ m.locals) indent
  | property p =>
    ("PROPERTY " ++ p.name ++ " : " ++ p.type) ::
      ((if p.hasGetter then ["GET"] else []) ++ if p.hasSetter then ["SET"] else [])

theorem lines_eq (indent : String) (member : Member) :
    member.lines indent =
      member.openingLines indent ++ memberBodyLines member.body member.implementation indent ++
        [member.closingWord.keyword] := by
  cases member with
  | method m =>
    obtain ⟨name, returnType, parameters, locals, body, implementation, pos⟩ := m
    cases returnType <;>
      simp [lines, openingLines, Method.lines, Member.body, Member.implementation, closingWord,
        ClosingWord.keyword]
  | property p =>
    simp [lines, openingLines, Property.lines, Member.body, Member.implementation, closingWord,
      ClosingWord.keyword]

theorem IsPlain.body {member : Member} (plain : member.IsPlain) :
    member.body.IsPlain member.implementation := by
  cases member with
  | method m => exact Method.IsPlain.body plain
  | property p => exact Property.IsPlain.body plain

@[simp] theorem closingWord_skeleton (member : Member) :
    member.skeleton.closingWord = member.closingWord := by
  cases member <;> rfl

@[simp] theorem body_skeleton (member : Member) : member.skeleton.body = member.body.skeleton := by
  cases member <;> rfl

theorem setBody_body (member : Member) (body : Body) :
    (member.setBody body).setBody member.body = member := by
  cases member <;> rfl

end Member

theorem inLine_sectionLines {vars : List Variable} (plain : ∀ v ∈ vars, v.IsPlain) {indent : String}
    (spaces : ∀ c ∈ indent.toList, c = ' ' ∨ c = '\t') :
    ∀ line ∈ sectionLines vars indent, InLine line.toList := by
  intro line member
  obtain ⟨scope, -, member⟩ := List.mem_flatMap.mp member
  have keyword : InLine scope.keyword.toList := by
    cases scope <;> exact ⟨by decide, by decide⟩
  have ending : InLine "END_VAR".toList := ⟨by decide, by decide⟩
  dsimp only at member
  split at member
  · cases member
  · simp only [List.cons_append, List.mem_cons, List.mem_append, List.mem_map,
      List.not_mem_nil, or_false] at member
    rcases member with rfl | ⟨v, isVariable, rfl⟩ | rfl
    · exact keyword
    · rw [String.toList_append]
      exact InLine.indented spaces (plain v (List.mem_of_mem_filter isVariable)).inLine_declaration
    · exact ending

namespace Member

variable {member : Member} {indent : String}

theorem IsPlain.inLine_openingLines (plain : member.IsPlain)
    (spaces : ∀ c ∈ indent.toList, c = ' ' ∨ c = '\t') :
    ∀ line ∈ member.openingLines indent, InLine line.toList := by
  cases member with
  | method m =>
    obtain ⟨isName, returnType, vars, -⟩ := plain
    have header := (readsAs_headerLine "METHOD".toList (m.returnType.map String.toList) (by decide)
      (by decide) isName (by simpa using returnType)).2
    rw [← toList_methodHeader] at header
    intro line inOpening
    rcases List.mem_cons.mp inOpening with rfl | later
    · exact header
    · exact inLine_sectionLines vars spaces line later
  | property p =>
    obtain ⟨isName, isType, -⟩ := plain
    have header := (readsAs_headerLine "PROPERTY".toList (some p.type.toList) (by decide)
      (by decide) isName (by simpa using isType)).2
    rw [← toList_propertyHeader] at header
    have marks : ∀ line ∈ (if p.hasGetter then ["GET"] else []) ++
        (if p.hasSetter then ["SET"] else []), InLine line.toList := by
      cases p.hasGetter <;> cases p.hasSetter <;> simp [InLine]
    intro line inOpening
    rcases List.mem_cons.mp inOpening with rfl | later
    · exact header
    · exact marks line later

theorem IsPlain.inLine_lines (plain : member.IsPlain)
    (spaces : ∀ c ∈ indent.toList, c = ' ' ∨ c = '\t') :
    ∀ line ∈ member.lines indent, InLine line.toList := by
  intro line inLines
  rw [member.lines_eq] at inLines
  rcases List.mem_append.mp inLines with inside | closing
  · rcases List.mem_append.mp inside with opening | body
    · exact plain.inLine_openingLines spaces line opening
    · exact inLine_memberBodyLines plain.body spaces line.toList (List.mem_map_of_mem body)
  · rw [List.mem_singleton.mp closing]
    exact member.closingWord.keyword_inLine

end Member

namespace Progress.Holding

variable {progress : Progress} {block : FunctionBlock}

theorem accessors {property : Property}
    (holding : progress.Holding { pou := .functionBlock block (some (.property property)) })
    (getter setter : Bool) (hasNone : property.hasGetter = false ∧ property.hasSetter = false) :
    ((((if getter then ["GET"] else []) ++ if setter then ["SET"] else []).map
        String.toList).foldl Progress.line progress).Holding
      { pou := .functionBlock block
          (some (.property { property with hasGetter := getter, hasSetter := setter })) } := by
  obtain ⟨name, type, hasGetter, hasSetter, body, implementation, pos⟩ := property
  obtain ⟨rfl, rfl⟩ : hasGetter = false ∧ hasSetter = false := hasNone
  cases getter <;> cases setter
  · exact holding
  · exact holding.accessor .set
  · exact holding.accessor .get
  · exact (holding.accessor .get).accessor .set

theorem opening {member : Member} (plain : member.IsPlain)
    (holding : progress.Holding { pou := .functionBlock block none }) {indent : String}
    (spaces : ∀ c ∈ indent.toList, c = ' ' ∨ c = '\t') :
    ∃ pou, (((member.openingLines indent).map String.toList).foldl Progress.line progress).Holding
        { pou } ∧
      pou.skeleton = .functionBlock block.skeleton (some (member.skeleton.setBody {})) ∧
      pou.body = {} := by
  cases member with
  | method m =>
    obtain ⟨isName, returnType, vars, -⟩ := plain
    have isType : ∀ text ∈ m.returnType.map String.toList, PlainType text := by
      simpa using returnType
    obtain ⟨pos, opened⟩ := holding.openMethod isName isType
    obtain ⟨next, reached, skeleton, body⟩ := opened.sections vars spaces
    refine ⟨next, ?_, skeleton, body⟩
    rw [Member.openingLines, List.map_cons, List.foldl_cons, toList_methodHeader]
    exact reached
  | property p =>
    obtain ⟨isName, isType, -⟩ := plain
    obtain ⟨pos, opened⟩ := holding.openProperty isName isType
    have marked := opened.accessors p.hasGetter p.hasSetter ⟨rfl, rfl⟩
    rw [Member.openingLines, List.map_cons, List.foldl_cons, toList_propertyHeader]
    exact ⟨_, marked, rfl, rfl⟩

end Progress.Holding

theorem OpenPou.of_skeleton {pou : OpenPou} {block : FunctionBlock}
    (skeleton : pou.skeleton = .functionBlock block none) :
    ∃ next, pou = .functionBlock next none ∧ next.skeleton = block := by
  rcases pou with ⟨next, _ | member⟩ | program | function
  · exact ⟨next, rfl, by simpa [OpenPou.skeleton] using skeleton⟩
  all_goals cases skeleton

theorem Progress.Holding.member {progress : Progress} {block : FunctionBlock} {member : Member}
    (plain : member.IsPlain) (holding : progress.Holding { pou := .functionBlock block none })
    {indent : String} (spaces : ∀ c ∈ indent.toList, c = ' ' ∨ c = '\t') :
    ∃ next, (((member.lines indent).map String.toList).foldl Progress.line progress).Holding
        { pou := .functionBlock next none } ∧
      next.skeleton = block.skeleton.addMember member.skeleton := by
  obtain ⟨pou, opened, opening, fresh⟩ := holding.opening plain spaces
  obtain ⟨scopes, read, noSection, finished, written⟩ :=
    opened.memberBody plain.body spaces fresh
  have whole : scopes.pou.skeleton = .functionBlock block.skeleton (some member.skeleton) := by
    have restored := member.skeleton.setBody_body {}
    rw [member.body_skeleton] at restored
    rw [written, opening]
    simp only [OpenPou.setBody, restored]
  have inside : scopes.pou.member?.map Member.skeleton = some member.skeleton := by
    rw [← OpenPou.member?_skeleton, whole]
    rfl
  obtain ⟨again, isOpen, sameMember⟩ := Option.map_eq_some_iff.mp inside
  have sameWord : again.closingWord = member.closingWord := by
    rw [← again.closingWord_skeleton, sameMember, member.closingWord_skeleton]
  have closed := read.closeMember noSection finished isOpen
  have after : scopes.pou.closeMember.skeleton =
      .functionBlock (block.skeleton.addMember member.skeleton) none := by
    rw [OpenPou.skeleton_closeMember, whole]
    rfl
  obtain ⟨next, isNext, skeleton⟩ := OpenPou.of_skeleton after
  refine ⟨next, ?_, skeleton⟩
  rw [sameWord, isNext] at closed
  simpa [member.lines_eq, List.foldl_append] using closed

theorem intercalate_cons_cons {separator first second : List String} (rest : List (List String)) :
    separator.intercalate (first :: second :: rest) =
      separator.intercalate ((first ++ separator ++ second) :: rest) := by
  cases rest <;> simp [List.intercalate]

structure Turns (written : List String) (before after : FunctionBlock) : Prop where
  inLine : ∀ line ∈ written, InLine line.toList
  reads : ∀ (progress : Progress) (block : FunctionBlock),
    progress.Holding { pou := .functionBlock block none } → block.skeleton = before →
      ∃ next, ((written.map String.toList).foldl Progress.line progress).Holding
          { pou := .functionBlock next none } ∧ next.skeleton = after

namespace Turns

variable {written other : List String} {before middle after : FunctionBlock}

theorem blank : Turns [""] before before := by
  refine ⟨by simp [InLine], fun progress block holding same => ⟨block, ?_, same⟩⟩
  exact holding.blank

theorem append (first : Turns written before middle) (second : Turns other middle after) :
    Turns (written ++ other) before after := by
  refine ⟨fun line member => ?_, fun progress block holding same => ?_⟩
  · rcases List.mem_append.mp member with inFirst | inSecond
    · exact first.inLine line inFirst
    · exact second.inLine line inSecond
  · obtain ⟨one, reached, isMiddle⟩ := first.reads progress block holding same
    obtain ⟨next, done, isAfter⟩ := second.reads _ one reached isMiddle
    exact ⟨next, by rwa [List.map_append, List.foldl_append], isAfter⟩

variable {indent : String} (spaces : ∀ c ∈ indent.toList, c = ' ' ∨ c = '\t')

include spaces

theorem statements (fresh : before.body = {}) {statements : List Statement}
    (inline : AreInline statements) (depth : Nat) :
    Turns (renderLines statements depth indent) before
      { before with body := { statements := withoutNumbers statements } } := by
  refine ⟨inLine_renderLines inline depth spaces, fun progress block holding same => ?_⟩
  have noneYet : block.body.statements = [] := by
    have empty : withoutNumbers block.body.statements = [] := by
      rw [← same] at fresh
      exact congrArg Body.statements fresh
    cases isNone : block.body.statements with
    | nil => rfl
    | cons statement rest => simp [isNone, withoutNumbers] at empty
  obtain ⟨written, reached, sameTree⟩ := holding.statements noneYet inline depth spaces
  refine ⟨{ block with body := { block.body with statements := written } }, reached, ?_⟩
  rw [← same, ← sameTree]
  rfl

theorem member {member : Member} (plain : member.IsPlain) :
    Turns (member.lines indent) before (before.addMember member.skeleton) := by
  refine ⟨plain.inLine_lines spaces, fun progress block holding same => ?_⟩
  obtain ⟨next, reached, skeleton⟩ := holding.member plain spaces
  exact ⟨next, reached, same ▸ skeleton⟩

-- Each member stands behind an empty line, unless nothing stands in front of it.
theorem members (first : Turns written before middle) {members : List Member}
    (plain : ∀ member ∈ members, member.IsPlain) :
    Turns
      ([""].intercalate ((written :: members.map (Member.lines indent)).filter (!·.isEmpty)))
      before ((members.map Member.skeleton).foldl FunctionBlock.addMember middle) := by
  induction members generalizing written middle with
  | nil =>
    cases written with
    | nil => exact first
    | cons line written => simpa [List.intercalate] using first
  | cons member members ih =>
    have here : Turns (member.lines indent) middle (middle.addMember member.skeleton) :=
      .member spaces (plain member List.mem_cons_self)
    have later : ∀ other ∈ members, other.IsPlain :=
      fun other isLater => plain other (List.mem_cons_of_mem member isLater)
    have visible : member.lines indent ≠ [] := by simp [member.lines_eq]
    cases written with
    | nil =>
      have rest := ih (first.append here) later
      simpa [visible] using rest
    | cons line written =>
      have rest := ih ((first.append blank).append here) later
      rw [List.filter_cons_of_pos (by simp)] at rest ⊢
      rwa [List.map_cons, List.filter_cons_of_pos (by simpa using visible), intercalate_cons_cons]

end Turns

theorem FunctionBlock.IsPlain.turns {block : FunctionBlock} (plain : block.IsPlain)
    {indent : String} (spaces : ∀ c ∈ indent.toList, c = ' ' ∨ c = '\t') :
    Turns (block.lines indent)
      { block.skeleton with methods := [], properties := [], body := {} } block.skeleton := by
  have plainMembers : ∀ member ∈ block.methods.map Member.method ++
      block.properties.map Member.property, member.IsPlain := by
    intro member inBlock
    rcases List.mem_append.mp inBlock with isMethod | isProperty
    · obtain ⟨method, inMethods, rfl⟩ := List.mem_map.mp isMethod
      exact plain.methods method inMethods
    · obtain ⟨property, inProperties, rfl⟩ := List.mem_map.mp isProperty
      exact plain.properties property inProperties
  let bare := { block.skeleton with methods := [], properties := [], body := {} }
  have statements : Turns (renderLines block.body.statements 0 indent) bare
      { bare with body := block.body.skeleton } :=
    .statements spaces rfl plain.statements 0
  have whole := statements.members spaces plainMembers
  have skeletons : (block.methods.map Member.method ++ block.properties.map Member.property).map
      Member.skeleton =
        (block.methods.map Method.skeleton).map Member.method ++
          (block.properties.map Property.skeleton).map Member.property := by
    simp [Function.comp_def, Member.skeleton]
  rw [skeletons, FunctionBlock.foldl_addMember] at whole
  simpa [bare, FunctionBlock.lines, Function.comp_def, Member.lines, FunctionBlock.skeleton,
    Body.skeleton] using whole

theorem FunctionBlock.lines_source {block : FunctionBlock} (isName : PlainName block.name.toList)
    {indent : String} (inLine : ∀ line ∈ block.lines indent, InLine line.toList) :
    StructuredText.lines (block.source indent).toList =
      headerLine "FUNCTION_BLOCK".toList block.name.toList none ::
        ((block.lines indent).map String.toList ++ ["END_FUNCTION_BLOCK".toList]) := by
  obtain ⟨-, noBreak, noReturn⟩ := readsAs_headerLine "FUNCTION_BLOCK".toList none
    (by decide) (by decide) isName (by simp)
  have shape : (block.source indent).toList =
      headerLine "FUNCTION_BLOCK".toList block.name.toList none ++ '\n' ::
        ((unlines (block.lines indent)).toList ++ ("END_FUNCTION_BLOCK".toList ++ ['\n'])) := by
    show ("FUNCTION_BLOCK " ++ block.name ++ "\n" ++ unlines (block.lines indent) ++
      "END_FUNCTION_BLOCK\n").toList = _
    simp [headerLine, typeSuffix]
  have ending : StructuredText.lines ("END_FUNCTION_BLOCK".toList ++ ['\n']) =
      ["END_FUNCTION_BLOCK".toList] := by
    rw [lines_append (by decide) (by decide), StructuredText.lines]
  rw [shape, lines_append noBreak noReturn, lines_unlines inLine, ending]

theorem Progress.holding_block {name : String} (isName : PlainName name.toList) :
    ∃ pos, (Progress.line {} (headerLine "FUNCTION_BLOCK".toList name.toList none)).Holding
      { pou := .functionBlock { name, base := none, interfaces := [], pos } none } := by
  obtain ⟨reads, -⟩ := readsAs_headerLine "FUNCTION_BLOCK".toList none
    (by decide) (by decide) isName (by simp)
  obtain ⟨step, text, result⟩ := @Progress.line_of_readsAs {} _ _ reads rfl
  have read : step.boundary? = some (.pou { kind := .functionBlock, name }) := by
    have header := Boundary.read?_block isName
    rw [String.ofList_toList] at header
    rw [Step.boundary?, text, header]
  refine ⟨step.pos, ?_⟩
  rw [result, State.step_of_boundary _ read]
  exact ⟨rfl, rfl⟩

theorem parse_source (block : FunctionBlock) (plain : block.IsPlain) (indent : String)
    (spaces : ∀ c ∈ indent.toList, c = ' ' ∨ c = '\t') :
    (parse (block.source indent)).diagnostics = [] ∧
      (parse (block.source indent)).programs = [] ∧
      (parse (block.source indent)).functions = [] ∧
      ∃ again, (parse (block.source indent)).functionBlocks = [again] ∧
        again.skeleton = block.skeleton := by
  obtain ⟨pos, start⟩ := Progress.holding_block plain.name
  have turns := plain.turns spaces
  obtain ⟨again, reached, skeleton⟩ := turns.reads _ _ start rfl
  have closed := Progress.line_of_closing_pou reached.comment reached.state (by simp) rfl
  have closing : (ClosingWord.pou (OpenPou.functionBlock again none).kind).keyword =
      "END_FUNCTION_BLOCK" := rfl
  rw [closing] at closed
  have result : parse (block.source indent) = { functionBlocks := [again] } := by
    rw [parse, FunctionBlock.lines_source plain.name turns.inLine, List.foldl_cons,
      List.foldl_append, List.foldl_cons, List.foldl_nil, closed]
    rfl
  rw [result]
  exact ⟨rfl, rfl, rfl, again, rfl, skeleton⟩

-- Statements of its own, members with statements, and a member that has none but keeps its lines.
-- In its strings there are marks that end a statement or begin a comment.
def pumpBlock : FunctionBlock where
  name := "Pump"
  base := none
  interfaces := []
  methods :=
    [{ name := "Run"
       returnType := some "INT"
       parameters := [⟨"speed", "INT", .input, some "limit", some "in turns", 3⟩]
       locals := [⟨"note", "STRING", .temp, some "\x27a; b\x27", none, 5⟩]
       body := { statements :=
         [.conditional ⟨"speed", [.assignment "limit" "speed" 9], [], some [], 8⟩] }
       pos := ⟨2, 1⟩ },
     { name := "Stop"
       returnType := none
       parameters := []
       implementation := "CASE mode OF // what to do\n1: log(mode);\nELSE\nreset();\nEND_CASE\n"
       pos := ⟨14, 1⟩ }]
  properties :=
    [{ name := "Level"
       type := "INT"
       hasGetter := true
       body := { statements := [.assignment "state" "\x22(* full\x22" 23] }
       pos := ⟨21, 1⟩ }]
  body := { statements := [.assignment "limit" "speed" 27] }
  pos := ⟨1, 1⟩

theorem isPlain_pumpBlock : pumpBlock.IsPlain := by
  refine ⟨by decide +kernel, by decide +kernel, ?_, ?_⟩
  · intro method inBlock
    simp only [pumpBlock, List.mem_cons, List.not_mem_nil, or_false] at inBlock
    rcases inBlock with rfl | rfl
    · exact ⟨by decide +kernel, by decide +kernel, by decide +kernel, by decide +kernel, by simp⟩
    · exact ⟨by decide +kernel, by simp, by simp, by decide +kernel, fun _ => by decide +kernel⟩
  · intro property inBlock
    simp only [pumpBlock, List.mem_cons, List.not_mem_nil, or_false] at inBlock
    rw [inBlock]
    exact ⟨by decide +kernel, by decide +kernel, by decide +kernel, by simp⟩

theorem parse_source_pumpBlock :
    (parse (pumpBlock.source "  ")).diagnostics = [] ∧
      (parse (pumpBlock.source "  ")).programs = [] ∧
      (parse (pumpBlock.source "  ")).functions = [] ∧
      ∃ again, (parse (pumpBlock.source "  ")).functionBlocks = [again] ∧
        again.skeleton = pumpBlock.skeleton :=
  parse_source pumpBlock isPlain_pumpBlock "  " (by simp)

def splitCommentSource : String :=
  "FUNCTION_BLOCK FB\nMETHOD Run\n  foo(); (* starts the\n            pump *)\n" ++
    "END_METHOD\nEND_FUNCTION_BLOCK\n"

theorem parse_source_splitComment :
    (parse splitCommentSource).diagnostics = [] ∧
      ∃ block, (parse splitCommentSource).functionBlocks = [block] ∧
        (parse (block.source "  ")).diagnostics ≠ [] := by
  have reads : (parse splitCommentSource).diagnostics = [] ∧
      ((parse splitCommentSource).functionBlocks.map fun block =>
        (parse (block.source "  ")).diagnostics.isEmpty) = [false] := by
    decide +kernel
  obtain ⟨clean, again⟩ := reads
  obtain ⟨block, only, faulty⟩ := List.map_eq_singleton_iff.mp again
  exact ⟨clean, block, only, by simpa using faulty⟩

end StructuredText
