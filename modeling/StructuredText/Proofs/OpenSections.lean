import StructuredText.Proofs.ModelChange

set_option autoImplicit false

namespace StructuredText

namespace State

-- A section ends where the next one begins, with its own END_VAR, and with its owner. It also ends
-- where a member opens.
def endsSection (state : State) (step : Step) : Bool :=
  match step.boundary? with
  | none | some (.pou _) | some (.closing .get) | some (.closing .set) => false
  | some (.varSection _) | some (.closing .var) => true
  | some (.closing .method) => state.member?.any (·.construct = .method)
  | some (.closing .property) => state.member?.any (·.construct = .property)
  | some (.closing (.pou kind)) => state.pou?.any (·.kind = kind)
  | some (.method _) | some (.property _) => state.freeBlock?.isSome

def opensSection? (state : State) (step : Step) : Option OpenSection :=
  match step.boundary?, state.pou? with
  | some (.varSection header), some _ => some ⟨header, step.pos⟩
  | _, _ => none

def keepsSection (state : State) : List Step → Bool
  | [] => true
  | step :: rest => !state.endsSection step && (state.step step).keepsSection rest

variable {state : State}

theorem varSection?_settle (outcome : State × Option Problem) (start : Position) :
    (settle outcome start).varSection? = outcome.1.varSection? := rfl

theorem dropPending_keeps (state : State) :
    state.dropPending.pou? = state.pou? ∧ state.dropPending.varSection? = state.varSection? := by
  cases current : state.current with
  | none => simp [dropPending, current]
  | some scopes =>
    rw [dropPending_of_open current]
    simp [pou?, varSection?, report, setScopes, current]

theorem varSection?_declare {scopes : Scopes} (current : state.current = some scopes)
    (header : SectionHeader) (text : List Char) (line : Nat) (comment : Option String) :
    (state.declare scopes header text line comment).1.varSection? = state.varSection? := by
  unfold declare
  split
  · rfl
  · split
    · rfl
    · simp [varSection?, setScopes, current]

theorem varSection?_statement {scopes : Scopes} (current : state.current = some scopes)
    (text : List Char) (pos : Position) (line : SourceLine) :
    (state.statement scopes text pos line).1.varSection? = state.varSection? := by
  have recorded (next : Scopes) (text : List Char) :
      (recordUnsupported next text line).varSection = next.varSection := by
    unfold recordUnsupported
    simp only
    split
    · rfl
    · split <;> rfl
  simp only [statement]
  split <;> simp [varSection?, setScopes, current, recorded]

theorem varSection?_content (text : List Char) (pos : Position) (line : SourceLine)
    (comment : Option String) :
    (state.content text pos line comment).1.varSection? = state.varSection? := by
  cases current : state.current with
  | none => simp [content, current]
  | some scopes =>
    simp only [content, current]
    split
    · exact varSection?_declare current ..
    · rename_i noSection _ _
      simp [varSection?, setScopes, current, noSection]
    · exact varSection?_statement current ..

theorem varSection?_openMember (member : Member) (problems : List Diagnostic) :
    (state.openMember member problems).1.varSection? =
      if state.freeBlock?.isSome then none else state.varSection? := by
  cases current : state.current with
  | none => simp [openMember, freeBlock?, pou?, current]
  | some scopes =>
    rcases owner : scopes.pou with ⟨block, _ | inner⟩ | program | function <;>
      simp [openMember, freeBlock?, pou?, varSection?, setScopes, current, owner]

theorem varSection?_closing {step : Step} (word : ClosingWord)
    (read : step.boundary? = some (.closing word)) :
    (state.closing word).1.varSection? =
      if state.endsSection step then none else state.varSection? := by
  cases current : state.current with
  | none => simp [closing, varSection?, current]
  | some scopes =>
    cases word with
    | var =>
      simp only [closing, current, endsSection, read, if_true]
      split
      · simp [varSection?, setScopes]
      · rename_i noSection
        simpa [varSection?, current] using noSection
    | get | set =>
      simp only [closing, current, endsSection, read]
      split <;> simp
    | pou kind =>
      simp only [closing, current, endsSection, read, pou?, Option.map_some, Option.any_some,
        decide_eq_true_eq]
      split
      · simp [closePou, current, varSection?]
      · rfl
    | method | property =>
      simp only [closing, current, endsSection, read, member?, pou?, Option.map_some,
        Option.bind_some]
      cases scopes.pou.member? with
      | none => simp
      | some member =>
        simp only [Option.any_some, decide_eq_true_eq]
        split
        · simp [varSection?, setScopes, report]
        · rfl

theorem varSection?_boundary {step : Step} {boundary : Boundary}
    (read : step.boundary? = some boundary) :
    (state.boundary step.pos boundary).1.varSection? =
      if state.endsSection step then state.opensSection? step else state.varSection? := by
  cases boundary with
  | closing word =>
    have opensNone : state.opensSection? step = none := by simp [opensSection?, read]
    rw [opensNone]
    exact varSection?_closing word read
  | pou header =>
    cases current : state.current <;>
      simp [boundary, openPou, endsSection, read, varSection?, setScopes, current]
  | method header | property header =>
    have opensNone : state.opensSection? step = none := by simp [opensSection?, read]
    have ends : state.endsSection step = state.freeBlock?.isSome := by simp [endsSection, read]
    rw [opensNone, ends]
    exact varSection?_openMember ..
  | varSection header =>
    cases current : state.current <;>
      simp [boundary, openSection, endsSection, opensSection?, read, varSection?, pou?, setScopes,
        current]

theorem varSection?_step (state : State) (step : Step) :
    (state.step step).varSection? =
      if state.endsSection step then state.opensSection? step else state.varSection? := by
  cases read : step.boundary? with
  | none =>
    have stays : state.endsSection step = false := by simp [endsSection, read]
    rw [stays]
    by_cases blank : step.text = []
    · simp [step_of_blank state blank]
    · rw [step_of_content state blank read, varSection?_settle, varSection?_content]
      rfl
  | some boundary =>
    obtain ⟨pou, varSection⟩ := dropPending_keeps state
    have ends : state.dropPending.endsSection step = state.endsSection step := by
      simp only [endsSection, member?, freeBlock?, pou]
    have opens : state.dropPending.opensSection? step = state.opensSection? step := by
      simp only [opensSection?, pou]
    rw [step_of_boundary state read, varSection?_settle, varSection?_boundary read, ends, opens,
      varSection]

theorem endsSection_of_opens {step : Step} {opened : OpenSection}
    (opens : state.opensSection? step = some opened) : state.endsSection step = true := by
  unfold opensSection? at opens
  split at opens
  · rename_i header _ read _
    simp [endsSection, read]
  · cases opens

theorem keepsSection_concat (steps : List Step) (last : Step) :
    state.keepsSection (steps ++ [last]) =
      (state.keepsSection steps && !(state.run steps).endsSection last) := by
  induction steps generalizing state with
  | nil => simp [keepsSection, run]
  | cons step steps ih => simp [keepsSection, ih, Bool.and_assoc]

end State

theorem stateAfter_run (before after : List Step) (step : Step) :
    (stateAfter (before ++ [step])).run after = stateAfter (before ++ step :: after) := by
  simp [stateAfter]

-- A section is open behind the fragments that have been read exactly if one of them opened it in
-- a POU and none since has ended it.
theorem openSection_iff {done : List Step} {opened : OpenSection} :
    (stateAfter done).varSection? = some opened ↔
      ∃ before step after, done = before ++ step :: after ∧
        (stateAfter before).opensSection? step = some opened ∧
        (stateAfter (before ++ [step])).keepsSection after = true := by
  induction done using List.reverseRecOn with
  | nil => simp [stateAfter, State.run, State.varSection?]
  -- The last fragment either decides it alone or leaves the section as it was.
  | append_singleton done last ih =>
    have next : stateAfter (done ++ [last]) = (stateAfter done).step last := by
      simp [stateAfter, State.run]
    rw [next, State.varSection?_step]
    constructor
    · intro isOpen
      split at isOpen
      · exact ⟨done, last, [], rfl, isOpen, rfl⟩
      · rename_i goesOn
        obtain ⟨before, step, after, rfl, opens, kept⟩ := ih.mp isOpen
        refine ⟨before, step, after ++ [last], by simp, opens, ?_⟩
        rw [State.keepsSection_concat, kept, stateAfter_run]
        simpa using goesOn
    · rintro ⟨before, step, after, split, opens, kept⟩
      rcases List.eq_nil_or_concat' after with rfl | ⟨between, final, rfl⟩
      · obtain ⟨rfl, rfl⟩ := List.append_singleton_inj.mp split
        rw [if_pos (State.endsSection_of_opens opens), opens]
      · have splitAll : done ++ [last] = (before ++ step :: between) ++ [final] := by
          simpa using split
        obtain ⟨rfl, rfl⟩ := List.append_singleton_inj.mp splitAll
        rw [State.keepsSection_concat, stateAfter_run, Bool.and_eq_true, Bool.not_eq_true'] at kept
        rw [kept.2, ih.mpr ⟨before, step, between, rfl, opens, kept.1⟩]
        rfl

-- The member takes the section of its block with it, and END_METHOD its own.
example :
    let source := "FUNCTION_BLOCK F VAR METHOD M VAR_TEMP x : INT; END_METHOD END_FUNCTION_BLOCK\n"
    (List.range 8).map (fun n =>
        (stateAfter ((steps source).take n)).varSection?.map (·.header.keyword)) =
      [none, none, some "VAR", none, some "VAR_TEMP", some "VAR_TEMP", none, none] := by
  decide +kernel

end StructuredText
