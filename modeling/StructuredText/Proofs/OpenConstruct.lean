import StructuredText.Proofs.Builder
import StructuredText.Proofs.Reading

set_option autoImplicit false

namespace StructuredText

structure OpenPou.Identity where
  kind : PouKind
  name : String
  pos : Position
  methods : List Method
  properties : List Property
  member : Option (Construct × String × Position)

namespace OpenPou

def identity : OpenPou → Identity
  | functionBlock block member =>
    { kind := .functionBlock
      name := block.name
      pos := block.pos
      methods := block.methods
      properties := block.properties
      member := member.map fun member => (member.construct, member.name, member.pos) }
  | program p => ⟨.program, p.name, p.pos, [], [], none⟩
  | function f => ⟨.function, f.name, f.pos, [], [], none⟩

@[simp] theorem identity_setBody (pou : OpenPou) (body : Body) :
    (pou.setBody body).identity = pou.identity := by
  cases pou with
  | functionBlock block member =>
    cases member with
    | none => rfl
    | some member => cases member <;> rfl
  | program p => rfl
  | function f => rfl

@[simp] theorem body_setBody (pou : OpenPou) (body : Body) : (pou.setBody body).body = body := by
  cases pou with
  | functionBlock block member =>
    cases member with
    | none => rfl
    | some member => cases member <;> rfl
  | program p => rfl
  | function f => rfl

theorem setBody_body (pou : OpenPou) : pou.setBody pou.body = pou := by
  rcases pou with ⟨block, _ | (method | property)⟩ | program | function <;> rfl

theorem setBody_setBody (pou : OpenPou) (body other : Body) :
    (pou.setBody body).setBody other = pou.setBody other := by
  rcases pou with ⟨block, _ | (method | property)⟩ | program | function <;> rfl

theorem addVariable_same (pou : OpenPou) (v : Variable) :
    (pou.addVariable v).identity = pou.identity ∧ (pou.addVariable v).body = pou.body := by
  cases pou with
  | functionBlock block member =>
    rcases member with _ | (method | property)
    · exact ⟨rfl, rfl⟩
    · simp only [addVariable]
      split <;> exact ⟨rfl, rfl⟩
    · exact ⟨rfl, rfl⟩
  | program p => exact ⟨rfl, rfl⟩
  | function f =>
    simp only [addVariable]
    split <;> exact ⟨rfl, rfl⟩

theorem foldl_addVariable_same {α : Type} (variableOf : α → Variable) (pou : OpenPou)
    (names : List α) :
    (names.foldl (fun pou name => pou.addVariable (variableOf name)) pou).identity = pou.identity ∧
      (names.foldl (fun pou name => pou.addVariable (variableOf name)) pou).body = pou.body := by
  induction names generalizing pou with
  | nil => exact ⟨rfl, rfl⟩
  | cons name names ih =>
    obtain ⟨identity, body⟩ := ih (pou.addVariable (variableOf name))
    obtain ⟨first, firstBody⟩ := pou.addVariable_same (variableOf name)
    exact ⟨identity.trans first, body.trans firstBody⟩

theorem setMember_same {pou : OpenPou} {member : Member} (opened : pou.member? = some member)
    (text : String) :
    (pou.setMember (some (member.addImplementation text))).identity = pou.identity ∧
      (pou.setMember (some (member.addImplementation text))).body = pou.body := by
  cases pou with
  | functionBlock block inner =>
    obtain rfl : inner = some member := opened
    cases member <;> exact ⟨rfl, rfl⟩
  | program p => cases opened
  | function f => cases opened

end OpenPou

def Boundary.member? : Boundary → Option (Construct × String)
  | method header => some (.method, header.name)
  | property header => some (.property, header.name)
  | _ => none

inductive Scopes.Change (step : Step) (scopes : Scopes) : Scopes → Prop where
  -- A closing word, a section header, or a header out of place. A pending statement ends.
  | varSection (varSection : Option OpenSection) (read : step.boundary? ≠ none) :
    Change step scopes { scopes with varSection, builder := scopes.builder.dropPending.1 }
  -- A declaration or an accessor.
  | amend (pou : OpenPou) (identity : pou.identity = scopes.pou.identity)
    (body : pou.body = scopes.pou.body) : Change step scopes { scopes with pou }
  | feed (outcome : Builder.Outcome) (pou : OpenPou) (copiedLine : Option Nat)
    (idle : scopes.varSection = none)
    (fed : outcome = scopes.builder.feed scopes.pou.body.statements step.text step.pos)
    (identity : pou.identity = scopes.pou.identity) (body : pou.body.statements = outcome.root) :
    Change step scopes { scopes with pou, builder := outcome.builder, copiedLine }
  | openMember (block : FunctionBlock) (member : Member)
    (owner : scopes.pou = .functionBlock block none)
    (header : step.boundary?.bind Boundary.member? = some (member.construct, member.name))
    (pos : member.pos = step.pos) (fresh : member.body = {}) :
    Change step scopes { pou := .functionBlock block (some member) }
  | closeMember (block : FunctionBlock) (member : Member) (read : step.boundary? ≠ none)
    (owner : scopes.pou = .functionBlock block (some member)) :
    Change step scopes { pou := .functionBlock (block.addMember member) none }

theorem MethodHeader.mem_invalidParameters {header : MethodHeader} {pos : Position}
    {diagnostic : Diagnostic} (member : diagnostic ∈ header.invalidParameters pos) :
    ∃ text, diagnostic = (Problem.invalidParameter text).at pos := by
  obtain ⟨entry, -, invalid⟩ := List.mem_filterMap.mp member
  cases entry with
  | ok parameter => cases invalid
  | error text => exact ⟨text, (Option.some.inj invalid).symm⟩

def Document.pous (document : Document) : PouKind → List OpenPou
  | .functionBlock => document.functionBlocks.map (.functionBlock · none)
  | .program => document.programs.map .program
  | .function => document.functions.map .function

@[simp] theorem Document.pous_report (document : Document) (diagnostics : List Diagnostic) :
    (document.report diagnostics).pous = document.pous := by
  funext kind
  cases kind <;> rfl

@[simp] theorem Document.diagnostics_addPou (document : Document) (pou : OpenPou) :
    (document.addPou pou).diagnostics = document.diagnostics := by
  unfold addPou
  split <;> rfl

def State.ChangesTo (state : State) (step : Step) (scopes : Scopes) (after : State) : Prop :=
  after.document.pous = state.document.pous ∧
    ∃ next, after.current = some next ∧ scopes.Change step next

namespace State

variable {state : State} {scopes : Scopes}

theorem changesTo_report (step : Step) (after : State) (diagnostics : List Diagnostic)
    (changes : state.ChangesTo step scopes after) :
    state.ChangesTo step scopes (after.report diagnostics) := by
  obtain ⟨pous, next, current, change⟩ := changes
  exact ⟨by simpa [report] using pous, next, current, change⟩

theorem dropPending_of_open (opened : state.current = some scopes) :
    state.dropPending =
      (state.setScopes { scopes with builder := scopes.builder.dropPending.1 }).report
        scopes.builder.dropPending.2 := by
  simp [dropPending, opened]

theorem dropPending_changes (opened : state.current = some scopes) {step : Step}
    (read : step.boundary? ≠ none) : state.ChangesTo step scopes state.dropPending := by
  rw [dropPending_of_open opened]
  exact ⟨by simp [report, setScopes], _, rfl, .varSection scopes.varSection read⟩

theorem closing_of_open (opened : state.current = some scopes) {step : Step}
    (read : step.boundary? ≠ none) (word : ClosingWord) :
    (state.dropPending.closing word).1.current = none ∨
      state.ChangesTo step scopes (state.dropPending.closing word).1 := by
  have unchanged := dropPending_changes opened read
  rw [dropPending_of_open opened] at unchanged ⊢
  cases word with
  | var =>
    simp only [closing, report, setScopes]
    split
    · exact .inr ⟨by simp, _, rfl, .varSection none read⟩
    · exact .inr unchanged
  | get | set =>
    simp only [closing, report, setScopes]
    split <;> exact .inr unchanged
  | pou kind =>
    simp only [closing, report, setScopes]
    split
    · exact .inl rfl
    · exact .inr unchanged
  | method | property =>
    simp only [closing, report, setScopes]
    split
    · exact .inr unchanged
    · rename_i member isOpen
      split
      · obtain ⟨block, owner⟩ : ∃ block, scopes.pou = .functionBlock block (some member) := by
          cases owner : scopes.pou <;> simp_all [OpenPou.member?]
        refine .inr ⟨by simp, _, rfl, ?_⟩
        simp only [owner, OpenPou.closeMember]
        exact .closeMember block member read owner
      · exact .inr unchanged

theorem openMember_of_open (opened : state.current = some scopes) (step : Step) (member : Member)
    (problems : List Diagnostic)
    (header : step.boundary?.bind Boundary.member? = some (member.construct, member.name))
    (pos : member.pos = step.pos) (fresh : member.body = {}) :
    state.ChangesTo step scopes (state.dropPending.openMember member problems).1 := by
  have read : step.boundary? ≠ none := by
    intro none
    simp [none] at header
  have unchanged := dropPending_changes opened read
  rw [dropPending_of_open opened] at unchanged ⊢
  simp only [openMember, report, setScopes] at unchanged ⊢
  split
  · rename_i block owner
    exact ⟨by simp, _, rfl, .openMember block member owner header pos fresh⟩
  · exact unchanged
  · exact unchanged

theorem boundary_of_open (opened : state.current = some scopes) (step : Step) (boundary : Boundary)
    (read : step.boundary? = some boundary) :
    (state.dropPending.boundary step.pos boundary).1.current = none ∨
      state.ChangesTo step scopes (state.dropPending.boundary step.pos boundary).1 := by
  have isBoundary : step.boundary? ≠ none := by simp [read]
  cases boundary with
  | closing word => exact closing_of_open opened isBoundary word
  | method header =>
    exact .inr (openMember_of_open opened step _ _ (by rw [read]; rfl) rfl rfl)
  | property header =>
    exact .inr (openMember_of_open opened step _ _ (by rw [read]; rfl) rfl rfl)
  | pou header =>
    have unchanged := dropPending_changes opened isBoundary
    rw [dropPending_of_open opened] at unchanged ⊢
    exact .inr unchanged
  | varSection header =>
    right
    rw [dropPending_of_open opened]
    exact ⟨by simp [boundary, openSection, report, setScopes], _, rfl, .varSection _ isBoundary⟩

theorem declare_of_open (step : Step) (header : SectionHeader) (line : Nat)
    (comment : Option String) (opened : state.current = some scopes) :
    state.ChangesTo step scopes (state.declare scopes header step.text line comment).1 := by
  have unchanged : state.ChangesTo step scopes state :=
    ⟨rfl, scopes, opened, .amend scopes.pou rfl rfl⟩
  cases kept : header.scope? with
  | none => simpa [declare, kept] using unchanged
  | some scope =>
    cases read : Declaration.read? step.text with
    | none => simpa [declare, kept, read] using unchanged
    | some declaration =>
      obtain ⟨identity, body⟩ := scopes.pou.foldl_addVariable_same
        (fun name => { name, type := declaration.type, scope,
                       initialValue := declaration.initialValue, comment, line })
        declaration.names
      simp only [declare, kept, read]
      exact ⟨rfl, _, rfl, .amend _ identity body⟩

theorem recordUnsupported_same (scopes : Scopes) (text : List Char) (line : SourceLine) :
    ∃ pou copiedLine, recordUnsupported scopes text line = { scopes with pou, copiedLine } ∧
      pou.identity = scopes.pou.identity ∧ pou.body.statements = scopes.pou.body.statements := by
  simp only [recordUnsupported]
  split
  · exact ⟨_, scopes.copiedLine, rfl, by simp, by simp⟩
  · rename_i member isOpen
    split
    · exact ⟨_, scopes.copiedLine, rfl, by simp, by simp⟩
    · obtain ⟨identity, body⟩ :=
        OpenPou.setMember_same isOpen (String.ofList (trim line.raw) ++ "\n")
      exact ⟨_, _, rfl, by simp [identity], by simp [body]⟩

theorem statement_of_open (state : State) (step : Step) (idle : scopes.varSection = none) :
    state.ChangesTo step scopes (state.statement scopes step.text step.pos step.line).1 := by
  let outcome := scopes.builder.feed scopes.pou.body.statements step.text step.pos
  let body := { scopes.pou.body with statements := outcome.root }
  have fed (pou : OpenPou) (copiedLine : Option Nat)
      (identity : pou.identity = scopes.pou.identity) (kept : pou.body.statements = outcome.root) :
      scopes.Change step { scopes with pou, builder := outcome.builder, copiedLine } :=
    .feed outcome pou copiedLine idle rfl identity kept
  simp only [statement]
  split
  · exact ⟨by simp [report, setScopes], _, rfl, fed _ _ (by simp) (by simp [outcome])⟩
  · rename_i text _
    let next : Scopes :=
      { scopes with pou := scopes.pou.setBody body, builder := outcome.builder }
    obtain ⟨pou, copiedLine, recorded, identity, kept⟩ := recordUnsupported_same next text step.line
    refine ⟨by simp [report, setScopes], _, rfl, ?_⟩
    have change := fed pou copiedLine (identity.trans (by simp [next]))
      (kept.trans (by simp [next, body]))
    exact recorded ▸ change
  · exact ⟨by simp [report, setScopes], _, rfl, fed _ _ (by simp) (by simp [outcome])⟩

theorem content_of_open (opened : state.current = some scopes) (step : Step)
    (comment : Option String) :
    state.ChangesTo step scopes (state.content step.text step.pos step.line comment).1 := by
  simp only [content, opened]
  split
  · exact declare_of_open step _ _ comment opened
  · rename_i block property accessor _ owner _
    refine ⟨rfl, _, rfl, .amend _ ?_ ?_⟩
    · rw [owner]
      cases accessor <;> rfl
    · rw [owner]
      cases accessor <;> rfl
  · rename_i idle _
    exact statement_of_open state step idle

-- A fragment closes the open POU or changes it in one of the ways of `Scopes.Change`. Other POUs
-- are not touched.
theorem step_of_open (opened : state.current = some scopes) (step : Step) :
    (state.step step).current = none ∨ state.ChangesTo step scopes (state.step step) := by
  have read : (state.fragment step.line step.fragment step.next).1.current = none ∨
      state.ChangesTo step scopes (state.fragment step.line step.fragment step.next).1 := by
    rw [fragment_eq]
    split
    · exact .inr ⟨rfl, scopes, opened, .amend scopes.pou rfl rfl⟩
    · split
      · rename_i boundary read
        exact boundary_of_open opened step boundary read
      · exact .inr (content_of_open opened step step.comment)
  rcases read with closed | changes
  · exact .inl closed
  · exact .inr (changesTo_report step _ _ changes)

-- Where no POU is open, a fragment opens one or does nothing but report.
theorem step_of_closed (closed : state.current = none) (step : Step) :
    (state.step step).document.pous = state.document.pous ∧
      ((state.step step).current = none ∨
        ∃ header, step.boundary? = some (.pou header) ∧
          (state.step step).current = some { pou := .ofHeader header step.pos }) := by
  have idle : state.dropPending = state := by simp [dropPending, closed]
  have read : (state.fragment step.line step.fragment step.next).1 = state ∨
      ∃ header, step.boundary? = some (.pou header) ∧
        (state.fragment step.line step.fragment step.next).1 =
          state.setScopes { pou := .ofHeader header step.pos } := by
    rw [fragment_eq, idle]
    split
    · exact .inl rfl
    · split
      · rename_i boundary read
        cases boundary with
        | pou header => exact .inr ⟨header, read, by simp [boundary, openPou, closed]⟩
        | closing word => simp [boundary, closing, closed]
        | method header => simp [boundary, openMethod, openMember, closed]
        | property header => simp [boundary, openProperty, openMember, closed]
        | varSection header => simp [boundary, openSection, closed]
      · simp [content, closed]
  rcases read with same | ⟨header, read, opens⟩
  · refine ⟨by simp [State.step, report, same], .inl ?_⟩
    simp [State.step, report, same, closed]
  · refine ⟨by simp [State.step, report, setScopes, opens], .inr ⟨header, read, ?_⟩⟩
    simp [State.step, report, setScopes, opens]

end State

end StructuredText
