import StructuredText.Proofs.EndOfSource
import StructuredText.Proofs.PlainDeclaration
import StructuredText.Proofs.UnsupportedCode

set_option autoImplicit false

namespace StructuredText

def InLine (s : List Char) : Prop :=
  '\n' ∉ s ∧ s.getLast? ≠ some '\r'

theorem InLine.of_last {s : List Char} (oneLine : '\n' ∉ s)
    (last : ∀ c ∈ s.getLast?, isBlank c = false) : InLine s := by
  refine ⟨oneLine, fun isReturn => ?_⟩
  exact absurd (last '\r' isReturn) (by decide)

theorem InLine.indented {pad s : List Char} (indent : ∀ c ∈ pad, c = ' ' ∨ c = '\t')
    (inLine : InLine s) : InLine (pad ++ s) := by
  have noBreak : '\n' ∉ pad := by
    intro member
    rcases indent _ member with space | tab
    · cases space
    · cases tab
  have noReturn : pad.getLast? ≠ some '\r' := by
    intro last
    rcases indent _ (List.mem_of_getLast? last) with space | tab
    · cases space
    · cases tab
  refine ⟨by simp [noBreak, inLine.1], ?_⟩
  rw [List.getLast?_append]
  cases last : s.getLast? with
  | none => exact noReturn
  | some c =>
    have other := inLine.2
    rw [last] at other
    exact other

namespace Progress.Holding

variable {progress : Progress} {scopes : Scopes} {pou : OpenPou} {block : FunctionBlock}

theorem boundary {raw text : List Char} {boundary : Boundary} {after : Position → Scopes}
    (holding : progress.Holding scopes) (reads : ReadsAs raw text)
    (read : Boundary.read? text = some boundary)
    (settled : ∀ pos start, State.settle
      ((State.mk {} (some scopes)).dropPending.boundary pos boundary) start =
        ⟨{}, some (after pos)⟩) :
    ∃ pos, (progress.line raw).Holding (after pos) := by
  obtain ⟨step, isText, result⟩ := line_of_readsAs reads holding.comment
  refine ⟨step.pos, by rw [result], ?_⟩
  have isBoundary : step.boundary? = some boundary := by
    rw [Step.boundary?, isText, read]
  rw [result, holding.state]
  exact (State.step_of_boundary _ isBoundary).trans (settled step.pos step.start)

theorem content {raw text : List Char} (holding : progress.Holding scopes) (after : Scopes → Prop)
    (reads : ReadsAs raw text) (nonempty : text ≠ []) (noBoundary : Boundary.read? text = none)
    (settled : ∀ pos line comment start, ∃ next, after next ∧
      State.settle ((State.mk {} (some scopes)).content text pos line comment) start =
        ⟨{}, some next⟩) :
    ∃ next, (progress.line raw).Holding next ∧ after next := by
  obtain ⟨step, rfl, result⟩ := line_of_readsAs reads holding.comment
  obtain ⟨next, reached, same⟩ := settled step.pos step.line step.comment step.start
  refine ⟨next, ⟨by rw [result], ?_⟩, reached⟩
  rw [result, holding.state]
  exact (State.step_of_content _ nonempty noBoundary).trans same

theorem blank (holding : progress.Holding scopes) : (progress.line []).Holding scopes := by
  have closed : IsClosed [] := by decide +kernel
  obtain ⟨steps, texts, result⟩ := line_of_closed holding.comment closed
  have nothing : lineTexts [] = [] := by decide +kernel
  rw [nothing] at texts
  obtain rfl : steps = [] := List.map_eq_nil_iff.mp texts
  refine ⟨by rw [result], ?_⟩
  rw [result]
  exact holding.state

end Progress.Holding

theorem readsAs_headerLine (keyword : List Char) (type : Option (List Char)) {name : List Char}
    (isKeyword : keyword ≠ [] ∧ keyword.all isNameChar = true)
    (cut : Cut.ofWord? keyword = some .before) (isName : PlainName name)
    (plain : ∀ text ∈ type, PlainType text) :
    ReadsAs (headerLine keyword name type) (headerLine keyword name type) ∧
      InLine (headerLine keyword name type) := by
  have names : ∀ c ∈ keyword, isNameChar c = true := List.all_eq_true.mp isKeyword.2
  have safe : keyword.all isBareChar = true := by
    refine List.all_eq_true.mpr fun c member => ?_
    have special : ['\n', '/', '('].all (fun d => !isNameChar d) = true := by decide
    have other {d : Char} (notName : isNameChar d = false) : c ≠ d := by
      rintro rfl
      rw [names c member] at notName
      cases notName
    simp at special
    simp [isBareChar, quoteClose?_of_name (names c member), other special.1, other special.2.1,
      other special.2.2]
  have bare := bare_headerLine safe isName plain
  obtain ⟨c, last, visible, -⟩ := last_headerLine keyword isName plain
  refine ⟨bare.readsAs (fragments_headerLine isKeyword.1 names cut isName plain),
    .of_last (fun member => (bare.characters _ member).1 rfl) ?_⟩
  rw [last]
  rintro _ ⟨⟩
  exact visible

namespace Progress.Holding

variable {progress : Progress} {scopes : Scopes} {pou : OpenPou} {block : FunctionBlock}

theorem openMethod (holding : progress.Holding { pou := .functionBlock block none })
    {name : String} {returnType : Option String} (isName : PlainName name.toList)
    (plain : ∀ text ∈ returnType.map String.toList, PlainType text) :
    ∃ pos, (progress.line
        (headerLine "METHOD".toList name.toList (returnType.map String.toList))).Holding
      { pou := .functionBlock block
          (some (.method { name, returnType, parameters := [], pos })) } := by
  obtain ⟨reads, -⟩ :=
    readsAs_headerLine "METHOD".toList _ (by decide) (by decide) isName plain
  have read := Boundary.read?_method isName plain
  simp only [String.ofList_toList, Option.map_map, Function.comp_def, Option.map_id'] at read
  exact holding.boundary reads read fun _ _ => rfl

theorem openProperty (holding : progress.Holding { pou := .functionBlock block none })
    {name type : String} (isName : PlainName name.toList) (plain : PlainType type.toList) :
    ∃ pos, (progress.line
        (headerLine "PROPERTY".toList name.toList (some type.toList))).Holding
      { pou := .functionBlock block (some (.property { name, type, pos })) } := by
  obtain ⟨reads, -⟩ := readsAs_headerLine "PROPERTY".toList (some type.toList)
    (by decide) (by decide) isName (by simpa using plain)
  have read := Boundary.read?_property isName plain
  simp only [String.ofList_toList] at read
  exact holding.boundary reads read fun _ _ => rfl

theorem readsAs_keyword {word : String} (safe : word.toList.all isBareChar = true)
    (single : (fragments word.toList).map Fragment.text = [word.toList]) :
    ReadsAs word.toList word.toList :=
  (bare_of_all safe).readsAs single

theorem openSection (holding : progress.Holding { pou }) (scope : Scope) :
    ∃ pos, (progress.line scope.keyword.toList).Holding
      { pou, varSection := some ⟨.scope scope, pos⟩ } := by
  have reads : ReadsAs scope.keyword.toList scope.keyword.toList := by
    cases scope <;> exact readsAs_keyword (by decide) (by decide +kernel)
  have read : Boundary.read? scope.keyword.toList = some (.varSection (.scope scope)) := by
    cases scope <;> decide
  exact holding.boundary reads read fun _ _ => rfl

theorem closeSection {opened : OpenSection}
    (holding : progress.Holding { pou, varSection := some opened }) :
    (progress.line (ClosingWord.keyword .var).toList).Holding { pou } := by
  have holds := ClosingWord.holds_keyword .var
  have reads := holds.settled.readsAs holds.noPragma holds.fragment
  obtain ⟨-, reached⟩ : ∃ _ : Position,
      (progress.line (ClosingWord.keyword .var).toList).Holding { pou } :=
    holding.boundary reads (ClosingWord.boundary_keyword .var) fun _ _ => rfl
  exact reached

theorem declare {scope : Scope} {pos : Position}
    (holding : progress.Holding { pou, varSection := some ⟨.scope scope, pos⟩ }) {v : Variable}
    (plain : v.IsPlain) {pad : List Char} (indent : ∀ c ∈ pad, c = ' ' ∨ c = '\t') :
    ∃ next, (progress.line (pad ++ v.declaration.toList)).Holding
        { pou := next, varSection := some ⟨.scope scope, pos⟩ } ∧
      next.skeleton = pou.skeleton ∧ next.body = pou.body := by
  let declared (next : OpenPou) : Scopes := { pou := next, varSection := some ⟨.scope scope, pos⟩ }
  have nonempty : v.text ≠ [] := by simp [Variable.text]
  obtain ⟨_, reached, next, rfl, same⟩ := holding.content
    (fun scopes => ∃ next, scopes = declared next ∧ next.skeleton = pou.skeleton ∧
      next.body = pou.body)
    (plain.readsAs_declaration.indented indent) nonempty plain.boundary_text
    fun _ line comment _ => by
      let read : Variable :=
        { name := v.name, type := v.type, scope, initialValue := v.initialValue, comment,
          line := line.number }
      refine ⟨declared (pou.addVariable read),
        ⟨_, rfl, pou.skeleton_addVariable read, (pou.addVariable_same read).2⟩, ?_⟩
      simp only [State.content, State.declare, SectionHeader.scope?, plain.read?_text]
      rfl
  exact ⟨next, reached, same⟩

theorem declareAll {scope : Scope} {pos : Position}
    (holding : progress.Holding { pou, varSection := some ⟨.scope scope, pos⟩ })
    {vars : List Variable} (plain : ∀ v ∈ vars, v.IsPlain) {pad : List Char}
    (indent : ∀ c ∈ pad, c = ' ' ∨ c = '\t') :
    ∃ next, ((vars.map fun v => pad ++ v.declaration.toList).foldl Progress.line progress).Holding
        { pou := next, varSection := some ⟨.scope scope, pos⟩ } ∧
      next.skeleton = pou.skeleton ∧ next.body = pou.body := by
  induction vars generalizing progress pou with
  | nil => exact ⟨pou, holding, rfl, rfl⟩
  | cons v vars ih =>
    obtain ⟨one, declared, skeleton, body⟩ := holding.declare (plain v List.mem_cons_self) indent
    obtain ⟨next, reached, sameSkeleton, sameBody⟩ :=
      ih declared fun v member => plain v (List.mem_cons_of_mem _ member)
    exact ⟨next, reached, sameSkeleton.trans skeleton, sameBody.trans body⟩

theorem sections (holding : progress.Holding { pou }) {vars : List Variable}
    (plain : ∀ v ∈ vars, v.IsPlain) {indent : String}
    (spaces : ∀ c ∈ indent.toList, c = ' ' ∨ c = '\t') :
    ∃ next, (((sectionLines vars indent).map String.toList).foldl Progress.line progress).Holding
        { pou := next } ∧
      next.skeleton = pou.skeleton ∧ next.body = pou.body := by
  unfold sectionLines
  generalize Scope.all = scopes
  induction scopes generalizing progress pou with
  | nil => exact ⟨pou, holding, rfl, rfl⟩
  | cons scope scopes ih =>
    rw [List.flatMap_cons, List.map_append, List.foldl_append]
    let members := vars.filter fun v => v.scope = scope
    have ofScope : ∃ next, (((if members.isEmpty then []
          else scope.keyword :: members.map (fun v => indent ++ v.declaration) ++ ["END_VAR"]).map
            String.toList).foldl Progress.line progress).Holding { pou := next } ∧
        next.skeleton = pou.skeleton ∧ next.body = pou.body := by
      split
      · exact ⟨pou, holding, rfl, rfl⟩
      · obtain ⟨pos, opened⟩ := holding.openSection scope
        have plainMembers : ∀ v ∈ members, v.IsPlain :=
          fun v member => plain v (List.mem_of_mem_filter member)
        obtain ⟨next, declared, same⟩ := opened.declareAll plainMembers spaces
        refine ⟨next, ?_, same⟩
        have closed := declared.closeSection
        simpa [Function.comp_def, List.foldl_append, ClosingWord.keyword] using closed
    obtain ⟨one, passed, skeleton, body⟩ := ofScope
    obtain ⟨next, reached, sameSkeleton, sameBody⟩ := ih passed
    exact ⟨next, reached, sameSkeleton.trans skeleton, sameBody.trans body⟩

theorem accessor {property : Property}
    (holding : progress.Holding { pou := .functionBlock block (some (.property property)) })
    (accessor : Accessor) :
    (progress.line accessor.keyword.toList).Holding
      { pou := .functionBlock block (some (.property (property.addAccessor accessor))) } := by
  have reads : ReadsAs accessor.keyword.toList accessor.keyword.toList := by
    cases accessor <;> exact readsAs_keyword (by decide) (by decide +kernel)
  have noBoundary : Boundary.read? accessor.keyword.toList = none := by
    cases accessor <;> decide
  have read : Accessor.read? accessor.keyword.toList = some accessor := by
    cases accessor <;> decide
  have nonempty : accessor.keyword.toList ≠ [] := by
    cases accessor <;> decide
  obtain ⟨_, reached, rfl⟩ := holding.content
    (· = { pou := .functionBlock block (some (.property (property.addAccessor accessor))) })
    reads nonempty noBoundary fun _ _ _ _ => by
      refine ⟨_, rfl, ?_⟩
      simp only [State.content, read]
      rfl
  exact reached

theorem statements (holding : progress.Holding { pou }) (fresh : pou.body.statements = [])
    {statements : List Statement} (inline : AreInline statements) (depth : Nat) {indent : String}
    (spaces : ∀ c ∈ indent.toList, c = ' ' ∨ c = '\t') :
    ∃ written, (((renderLines statements depth indent).map String.toList).foldl Progress.line
        progress).Holding { pou := pou.setBody { pou.body with statements := written } } ∧
      withoutNumbers written = withoutNumbers statements := by
  have unchanged : pou.setBody { pou.body with statements := [] } = pou := by
    rw [← fresh]
    exact pou.setBody_body
  have composing : progress.Composing pou {} {} :=
    ⟨by simpa [Cursor.root, unchanged] using holding, .fresh [], rfl, rfl⟩
  obtain ⟨written, wrote, same⟩ := rewrites statements (progress.count + 1) [] []
  rw [← map_snd_statementLines depth, List.nil_append] at wrote
  obtain ⟨next, done⟩ :=
    composing.lines spaces (isInline_of_mem_statementLines inline depth) wrote
  have rendered : (renderLines statements depth indent).map String.toList =
      (statementLines depth statements).map (paddedLine indent) := by
    simp [renderLines, paddedLine]
  refine ⟨written, ?_, same⟩
  rw [rendered]
  have idle := done.tracks.idle done.pending done.blocks
  simpa [idle, Cursor.root] using done.holding

theorem unsupported {raws : List (List Char)} {depth after : Nat} {copiedLine : Option Nat}
    (holding : progress.Holding { pou, builder := .within depth, copiedLine })
    (noStatements : pou.body.statements = []) (closed : ∀ raw ∈ raws, IsClosed raw)
    (left : blocksAfterAll? depth (raws.flatMap lineTexts) = some after) :
    ∃ next copied, (raws.foldl Progress.line progress).Holding
        { pou := next, builder := .within after, copiedLine := copied } ∧
      next.skeleton = pou.skeleton := by
  induction raws generalizing progress pou depth copiedLine with
  | nil =>
    cases left
    exact ⟨pou, copiedLine, holding, rfl⟩
  | cons raw raws ih =>
    rw [List.flatMap_cons, blocksAfterAll?_append] at left
    obtain ⟨middle, first, rest⟩ := Option.bind_eq_some_iff.mp left
    obtain ⟨steps, texts, result⟩ :=
      line_of_closed holding.comment (closed raw List.mem_cons_self)
    rw [← texts] at first
    obtain ⟨one, copied, ran, sameCode, stillNone⟩ :=
      State.run_unsupported copiedLine first noStatements
    have passed : (progress.line raw).Holding
        { pou := one, builder := .within middle, copiedLine := copied } := by
      refine ⟨by rw [result], ?_⟩
      rw [result, holding.state]
      exact ran
    obtain ⟨next, last, reached, skeleton⟩ :=
      ih passed stillNone (fun other member => closed other (List.mem_cons_of_mem raw member)) rest
    exact ⟨next, last, reached, skeleton.trans sameCode⟩

theorem closeMember {member : Member} (holding : progress.Holding scopes)
    (noSection : scopes.varSection = none) (finished : scopes.unfinished = [])
    (isOpen : scopes.pou.member? = some member) :
    (progress.line member.closingWord.keyword.toList).Holding
      { pou := scopes.pou.closeMember } := by
  have closed := line_of_closing_member holding.comment holding.state
    (fun inSection => absurd noSection inSection) isOpen
  rw [closed, finished]
  exact ⟨rfl, rfl⟩

end Progress.Holding

/-- Lines of which nothing but unsupported code is read, and each of them closed. -/
structure IsUnsupported (implementation : String) : Prop where
  closed : ∀ line ∈ lines implementation.toList, IsClosed line
  noReturn : ∀ line ∈ lines implementation.toList, line.getLast? ≠ some '\r'
  texts : (blocksAfterAll? 0 ((lines implementation.toList).flatMap lineTexts)).isSome = true

instance (implementation : String) : Decidable (IsUnsupported implementation) :=
  decidable_of_iff
    ((∀ line ∈ lines implementation.toList, IsClosed line) ∧
      (∀ line ∈ lines implementation.toList, line.getLast? ≠ some '\r') ∧
      (blocksAfterAll? 0 ((lines implementation.toList).flatMap lineTexts)).isSome = true)
    ⟨fun ⟨closed, noReturn, texts⟩ => ⟨closed, noReturn, texts⟩,
      fun plain => ⟨plain.closed, plain.noReturn, plain.texts⟩⟩

theorem oneLine_of_mem_lines {s line : List Char} (member : line ∈ lines s) : '\n' ∉ line := by
  fun_induction lines s generalizing line with
  | case1 => cases member
  | case2 rest ih | case3 rest ih =>
    rcases List.mem_cons.mp member with rfl | later
    · simp
    · exact ih later
  | case4 c rest notBreak notReturn ih =>
    have notHere : c ≠ '\n' := notBreak
    cases pieces : lines rest with
    | nil =>
      obtain rfl : line = [c] := by simpa [pieces, consFirst] using member
      simpa using Ne.symm notHere
    | cons first others =>
      rw [pieces] at member ih
      rcases List.mem_cons.mp member with rfl | later
      · simp [Ne.symm notHere, ih List.mem_cons_self]
      · exact ih (List.mem_cons_of_mem first later)

structure Body.IsPlain (body : Body) (implementation : String) : Prop where
  statements : AreInline body.statements
  implementation : body.statements = [] → IsUnsupported implementation

section Body

variable {body : Body} {implementation : String} (plain : body.IsPlain implementation)
  {indent : String} (spaces : ∀ c ∈ indent.toList, c = ' ' ∨ c = '\t')

def indentedLine (indent : String) (line : List Char) : List Char :=
  if line.isEmpty then [] else indent.toList ++ line

include spaces in
theorem closed_indentedLine {line : List Char} (closed : IsClosed line) :
    IsClosed (indentedLine indent line) ∧
      lineTexts (indentedLine indent line) = lineTexts line := by
  unfold indentedLine
  split
  · rename_i empty
    rw [← List.isEmpty_iff.mp empty]
    exact ⟨closed, rfl⟩
  · exact ⟨isClosed_indent spaces closed, lineTexts_indent spaces line⟩

theorem memberBodyLines_of_nil (noStatements : body.statements = []) :
    (memberBodyLines body implementation indent).map String.toList =
      (lines implementation.toList).map (indentedLine indent) := by
  rw [memberBodyLines, noStatements, List.isEmpty_nil, if_pos rfl, List.map_map]
  refine List.map_congr_left fun line _ => ?_
  simp only [Function.comp_apply, indentedLine]
  split <;> simp

theorem memberBodyLines_of_statements (statements : body.statements ≠ []) :
    memberBodyLines body implementation indent = renderLines body.statements 1 indent := by
  simp [memberBodyLines, statements]

include plain spaces

theorem inLine_memberBodyLines :
    ∀ line ∈ (memberBodyLines body implementation indent).map String.toList, InLine line := by
  intro line member
  by_cases noStatements : body.statements = []
  · rw [memberBodyLines_of_nil noStatements] at member
    obtain ⟨raw, isLine, rfl⟩ := List.mem_map.mp member
    have inLine : InLine raw :=
      ⟨oneLine_of_mem_lines isLine, (plain.implementation noStatements).noReturn raw isLine⟩
    unfold indentedLine
    split
    · simp [InLine]
    · exact inLine.indented spaces
  · rw [memberBodyLines_of_statements noStatements] at member
    obtain ⟨written, isLine, rfl⟩ := List.mem_map.mp member
    exact inLine_renderLines plain.statements 1 spaces written isLine

theorem Progress.Holding.memberBody {progress : Progress} {pou : OpenPou}
    (holding : progress.Holding { pou }) (fresh : pou.body = {}) :
    ∃ scopes, (((memberBodyLines body implementation indent).map String.toList).foldl
        Progress.line progress).Holding scopes ∧
      scopes.varSection = none ∧ scopes.unfinished = [] ∧
      scopes.pou.skeleton = pou.skeleton.setBody body.skeleton := by
  have noneYet : pou.body.statements = [] := by rw [fresh]
  by_cases noStatements : body.statements = []
  · obtain ⟨closed, -, texts⟩ := plain.implementation noStatements
    obtain ⟨after, left⟩ := Option.isSome_iff_exists.mp texts
    have same : ((lines implementation.toList).map (indentedLine indent)).flatMap lineTexts =
        (lines implementation.toList).flatMap lineTexts := by
      rw [List.flatMap_map]
      exact List.flatMap_congr fun line member =>
        (closed_indentedLine spaces (closed line member)).2
    have stillClosed : ∀ raw ∈ (lines implementation.toList).map (indentedLine indent),
        IsClosed raw := by
      intro raw member
      obtain ⟨line, isLine, rfl⟩ := List.mem_map.mp member
      exact (closed_indentedLine spaces (closed line isLine)).1
    have within : progress.Holding { pou, builder := .within 0, copiedLine := none } := holding
    rw [← same] at left
    obtain ⟨next, copied, reached, skeleton⟩ := within.unsupported noneYet stillClosed left
    refine ⟨_, by rwa [memberBodyLines_of_nil noStatements], rfl, rfl, ?_⟩
    have empty : body.skeleton = pou.skeleton.body := by
      rw [pou.body_skeleton, fresh, Body.skeleton, noStatements]
      rfl
    rw [empty, pou.skeleton.setBody_body]
    exact skeleton
  · obtain ⟨written, reached, same⟩ := holding.statements noneYet plain.statements 1 spaces
    refine ⟨_, by rwa [memberBodyLines_of_statements noStatements], rfl, rfl, ?_⟩
    rw [OpenPou.skeleton_setBody, Body.skeleton, same]
    rfl

end Body

end StructuredText
