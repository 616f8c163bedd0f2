import StructuredText.Proofs.Alignment
import StructuredText.Proofs.CompleteAssignments
import StructuredText.Proofs.SourceOrder
import StructuredText.Proofs.StatementFates

set_option autoImplicit false

namespace StructuredText

namespace Builder

variable {builder : Builder} {root : List Statement} {text : List Char} {pos : Position}
  {pending : Pending}

theorem build_waits {continued : Bool} (idle : builder.pending = none)
    (waits : (builder.build root text pos continued).builder.pending = some pending) :
    pending = ⟨text, pos⟩ ∧ (builder.build root text pos continued).isKept = false := by
  rcases build_settles idle root text pos continued with ⟨-, isPending, lost⟩ | ⟨-, -, -, none, -⟩
  · rw [isPending] at waits
    exact ⟨(Option.some.inj waits).symm, lost⟩
  · rw [none] at waits
    cases waits

theorem Tracks.feed_waits {cursor : Cursor} (tracks : builder.Tracks root cursor)
    (waits : (builder.feed root text pos).builder.pending = some pending) :
    pending = ⟨(builder.offered text pos).1, (builder.offered text pos).2.1⟩ ∧
      (builder.feed root text pos).root = root := by
  obtain ⟨sameBuilder, sameRoot⟩ := builder.feed_eq_takeOffered root text pos
  rw [sameBuilder, takeOffered_eq] at waits
  obtain ⟨isOffered, lost⟩ := build_waits rfl waits
  rw [← takeOffered_eq] at lost
  refine ⟨isOffered, ?_⟩
  rcases tracks.takeOffered_written text pos with ⟨kept, -⟩ | ⟨-, same, -⟩
  · rw [kept] at lost
    cases lost
  · rw [sameRoot, same]

end Builder

namespace Scopes

variable {scopes next : Scopes} {step : Step}

def WaitsBelow (scopes : Scopes) : Prop :=
  ∀ pending ∈ scopes.builder.pending, scopes.pou.headerLine ≤ pending.pos.line ∧
    ∀ number ∈ lineNumbers scopes.pou.body.statements, number ≤ pending.pos.line

theorem waitsBelow_of_idle (idle : scopes.builder.pending = none) : scopes.WaitsBelow := by
  simp [WaitsBelow, idle]

def begun (scopes : Scopes) (step : Step) : Position :=
  (scopes.builder.offered step.text step.pos).2.1

theorem begun_below (waits : scopes.WaitsBelow)
    (early : UpTo step.line.number scopes.pou.marks) :
    scopes.pou.headerLine ≤ (scopes.begun step).line ∧
      ∀ number ∈ lineNumbers scopes.pou.body.statements, number ≤ (scopes.begun step).line := by
  have fresh : scopes.pou.headerLine ≤ step.pos.line ∧
      ∀ number ∈ lineNumbers scopes.pou.body.statements, number ≤ step.pos.line :=
    ⟨OpenPou.headerLine_le early, OpenPou.lineNumbers_le early⟩
  simp only [begun, Builder.offered]
  split
  · exact fresh
  · rename_i pending isPending
    split
    · exact fresh
    · exact waits pending isPending

theorem inOrder_recordUnsupported {text : List Char} {line : SourceLine}
    (inOrder : scopes.pou.InOrder) (begun : scopes.pou.headerLine ≤ line.number)
    (early : ∀ entry ∈ scopes.pou.body.unsupported, entry.line ≤ line.number) :
    (State.recordUnsupported scopes text line).pou.InOrder := by
  let entries := scopes.pou.body.unsupported ++ [⟨String.ofList text, line.number⟩]
  have before := OpenPou.body_inOrder inOrder
  have grown : Ascends scopes.pou.headerLine (entries.map Unsupported.line) := by
    rw [List.map_append]
    exact before.unsupported.append begun (by simpa using early) (by simp)
  have recorded : (scopes.pou.setBody { scopes.pou.body with unsupported := entries }).InOrder :=
    OpenPou.inOrder_setBody inOrder ⟨before.statements, grown⟩
  simp only [State.recordUnsupported]
  split
  · exact recorded
  · rename_i member isOpen
    split
    · exact recorded
    · exact OpenPou.inOrder_setMember isOpen _ recorded

theorem inOrder_withCode (sound : scopes.Sound) (waits : scopes.WaitsBelow)
    (inOrder : scopes.pou.InOrder) (early : UpTo step.line.number scopes.pou.marks) :
    (scopes.withCode step).InOrder := by
  obtain ⟨cursor, tracks⟩ := sound.tracks
  obtain ⟨numbers, grown, ofBegun⟩ := tracks.lineNumbers_feed step.text step.pos
  obtain ⟨belowHeader, belowTree⟩ := begun_below waits early
  let outcome := scopes.builder.feed scopes.pou.body.statements step.text step.pos
  let body := { scopes.pou.body with statements := outcome.root }
  have before := OpenPou.body_inOrder inOrder
  have statements : Ascends scopes.pou.headerLine (lineNumbers outcome.root) := by
    rw [grown]
    exact before.statements.append belowHeader belowTree ofBegun
  have fed : (scopes.pou.setBody body).InOrder :=
    OpenPou.inOrder_setBody inOrder ⟨statements, before.unsupported⟩
  unfold withCode
  simp only
  split
  · refine inOrder_recordUnsupported fed ?_ ?_
    · rw [OpenPou.headerLine_setBody]
      exact OpenPou.headerLine_le early
    · simpa using OpenPou.unsupported_le early
  · exact fed

theorem inputs_ascend (header : MethodHeader) (line : Nat) :
    Ascends line ((header.inputs line).map Variable.line) := by
  refine (Ascends.nil line).append le_rfl (by simp) ?_
  simp only [MethodHeader.inputs, List.mem_map, List.mem_filterMap]
  rintro number ⟨v, ⟨entry, -, isInput⟩, rfl⟩
  cases entry with
  | ok parameter => cases isInput; rfl
  | error text => cases isInput

theorem inOrder_of_revises (sound : scopes.Sound) (waits : scopes.WaitsBelow)
    (inOrder : scopes.pou.InOrder) (early : UpTo step.line.number scopes.pou.marks) {pou : OpenPou}
    (revises : scopes.Revises step (some pou)) : pou.InOrder := by
  cases revises with
  | method read owner =>
    rw [owner] at inOrder early
    exact OpenPou.inOrder_openMethod inOrder early ⟨inputs_ascend _ _, .nil _, .empty _⟩
  | property read owner =>
    rw [owner] at inOrder early
    exact OpenPou.inOrder_openProperty inOrder early ⟨.empty _⟩
  | declaration noBoundary inSection =>
    unfold withVariables
    split
    · exact inOrder
    · refine OpenPou.inOrder_foldl_addVariable inOrder early ?_
      intro v isVar
      unfold Step.vars at isVar
      split at isVar
      · cases isVar
      · obtain ⟨name, -, rfl⟩ := List.mem_map.mp isVar
        rfl
  | accessor noBoundary noSection amended =>
    obtain ⟨_, -, isAmended⟩ := Option.bind_eq_some_iff.mp amended
    exact OpenPou.inOrder_withAccessor isAmended inOrder
  | code code => exact inOrder_withCode sound waits inOrder early

theorem withCode_same (scopes : Scopes) (step : Step) :
    (scopes.withCode step).identity = scopes.pou.identity ∧
      (scopes.withCode step).body.statements =
        (scopes.builder.feed scopes.pou.body.statements step.text step.pos).root := by
  let outcome := scopes.builder.feed scopes.pou.body.statements step.text step.pos
  let next : Scopes :=
    { scopes with
      pou := scopes.pou.setBody { scopes.pou.body with statements := outcome.root }
      builder := outcome.builder }
  have fed : next.pou.identity = scopes.pou.identity ∧
      next.pou.body.statements = outcome.root := by simp [next]
  unfold withCode
  simp only
  split
  · obtain ⟨pou, copiedLine, recorded, identity, statements⟩ :=
      State.recordUnsupported_same next _ step.line
    rw [recorded]
    exact ⟨identity.trans fed.1, statements.trans fed.2⟩
  · exact fed

theorem header_of_revises {pou : OpenPou} (revises : scopes.Revises step (some pou)) :
    pou.kind = scopes.pou.kind ∧ pou.pos = scopes.pou.pos := by
  have same (identity : pou.identity = scopes.pou.identity) :
      pou.kind = scopes.pou.kind ∧ pou.pos = scopes.pou.pos :=
    ⟨OpenPou.kind_of_identity identity, OpenPou.pos_of_identity identity⟩
  cases revises with
  | method read owner | property read owner =>
    rw [owner]
    exact ⟨rfl, rfl⟩
  | declaration noBoundary inSection =>
    apply same
    unfold withVariables
    split
    · rfl
    · exact (OpenPou.foldl_addVariable_same id ..).1
  | accessor noBoundary noSection amended =>
    obtain ⟨accessor, -, isAmended⟩ := Option.bind_eq_some_iff.mp amended
    rcases owner : scopes.pou with ⟨block, _ | (method | property)⟩ | program | function
    all_goals
      rw [owner] at isAmended
      cases isAmended
    exact ⟨rfl, rfl⟩
  | code code => exact same (scopes.withCode_same step).1

theorem waitsBelow_next (sound : scopes.Sound) (waits : scopes.WaitsBelow)
    (early : UpTo step.line.number scopes.pou.marks) (change : scopes.Change step next) :
    next.WaitsBelow := by
  cases change with
  | varSection => exact waitsBelow_of_idle rfl
  | openMember => exact waitsBelow_of_idle rfl
  | closeMember => exact waitsBelow_of_idle rfl
  | amend pou identity body =>
    intro pending isPending
    rw [body, OpenPou.headerLine_of_identity identity]
    exact waits pending isPending
  | feed outcome pou copiedLine idle fed identity body =>
    intro pending isPending
    obtain ⟨cursor, tracks⟩ := sound.tracks
    rw [fed] at isPending body
    obtain ⟨rfl, same⟩ := tracks.feed_waits isPending
    rw [body, same, OpenPou.headerLine_of_identity identity]
    exact begun_below waits early

end Scopes

theorem Document.inOrder_unreported {document : Document} :
    document.unreported.InOrder ↔ document.InOrder :=
  ⟨fun ⟨functionBlocks, programs, functions⟩ => ⟨functionBlocks, programs, functions⟩,
    fun ⟨functionBlocks, programs, functions⟩ => ⟨functionBlocks, programs, functions⟩⟩

theorem Document.marks_of_mem {document : Document} {kind : PouKind} {pou : OpenPou}
    (member : pou ∈ document.pous kind) : pou.marks ⊆ document.marks := by
  cases kind with
  | functionBlock =>
    obtain ⟨block, isBlock, rfl⟩ := List.mem_map.mp member
    intro mark isMark
    simp only [OpenPou.marks, Option.map_none, Option.getD_none, List.append_nil] at isMark
    simp only [marks, List.mem_append, List.mem_flatMap]
    exact .inl (.inl (.inl ⟨block, isBlock, isMark⟩))
  | program =>
    obtain ⟨program, isProgram, rfl⟩ := List.mem_map.mp member
    intro mark isMark
    simp only [marks, List.mem_append, List.mem_flatMap]
    exact .inl (.inl (.inr ⟨program, isProgram, isMark⟩))
  | function =>
    obtain ⟨function, isFunction, rfl⟩ := List.mem_map.mp member
    intro mark isMark
    simp only [marks, List.mem_append, List.mem_flatMap]
    exact .inl (.inr ⟨function, isFunction, isMark⟩)

structure State.InOrder (state : State) : Prop where
  model : state.model.InOrder
  waits : ∀ scopes ∈ state.current, scopes.WaitsBelow

namespace State.InOrder

variable {state : State} {step : Step} {known : List Mark} (inOrder : state.InOrder)
  (marked : state.Marked known) (early : UpTo step.line.number known)

include inOrder marked early

theorem step_of_closed (closed : state.current = none) : (state.step step).InOrder := by
  have noPou : state.model = state.document := by simp [State.model, closed]
  have before : state.document.InOrder := noPou ▸ inOrder.model
  constructor
  · rw [← Document.inOrder_unreported, State.unreported_step]
    rcases State.revision_of_closed closed step with none | ⟨header, opens⟩
    · rw [none, noPou]
      exact Document.inOrder_unreported.mpr before
    · rw [opens]
      refine Document.inOrder_unreported.mpr (Document.inOrder_addPou.mpr ⟨before, ?_, ?_⟩)
      · intro other isOther
        have inside := List.Subset.trans (Document.marks_of_mem isOther) marked.document
        rw [OpenPou.pos_ofHeader]
        exact early _ (other.marks_pos inside (by simp [Position.marks]))
      · exact OpenPou.inOrder_ofHeader header step.pos
  · obtain ⟨-, none | ⟨header, -, opens⟩⟩ := State.step_of_closed closed step
    · simp [none]
    · rw [opens]
      rintro scopes ⟨⟩
      exact Scopes.waitsBelow_of_idle rfl

theorem step_of_open {scopes : Scopes} (sound : scopes.Sound)
    (current : state.current = some scopes) : (state.step step).InOrder := by
  have early : UpTo step.line.number scopes.pou.marks :=
    fun number named => early number ((marked.current scopes current).pou named)
  have waits := inOrder.waits scopes current
  have model := inOrder.model
  rw [State.model_of_open current] at model
  constructor
  · rw [← Document.inOrder_unreported, State.unreported_step]
    have revises := State.revision_of_open current step
    cases revision : state.revision? step with
    | none => exact Document.inOrder_unreported.mpr inOrder.model
    | some next =>
      rw [revision] at revises
      obtain ⟨before, above, opened⟩ := Document.inOrder_addPou.mp model
      obtain ⟨kind, pos⟩ := Scopes.header_of_revises revises
      refine Document.inOrder_unreported.mpr (Document.inOrder_addPou.mpr ⟨before, ?_, ?_⟩)
      · rw [kind, pos]
        exact above
      · exact Scopes.inOrder_of_revises sound waits opened early revises
  · rcases State.step_of_open current step with closed | ⟨-, next, nextCurrent, change⟩
    · simp [closed]
    · rw [nextCurrent]
      rintro _ ⟨⟩
      exact Scopes.waitsBelow_next sound waits early change

end State.InOrder

def InLineOrder (steps : List Step) : Prop :=
  (steps.map fun step => step.line.number).Pairwise (· ≤ ·)

theorem inLineOrder_stepsFrom (count : Nat) (carried : Option OpenComment)
    (raws : List (List Char)) : InLineOrder (stepsFrom count carried raws) := by
  induction raws generalizing count carried with
  | nil => exact List.Pairwise.nil
  | cons raw raws ih =>
    rw [InLineOrder, stepsFrom, List.map_append, List.pairwise_append]
    have first : ∀ number ∈ ((if (strip carried raw (count + 1)).1.isEmpty then [] else
        SourceLine.steps ⟨raw, (strip carried raw (count + 1)).1, count + 1⟩).map
          fun step => step.line.number), number = count + 1 := by
      intro number isNumber
      obtain ⟨step, member, rfl⟩ := List.mem_map.mp isNumber
      split at member
      · cases member
      · rw [(mem_lineSteps member).1]
    refine ⟨?_, ih _ _, ?_⟩
    · refine List.pairwise_of_forall_mem_list fun one isOne other isOther => ?_
      rw [first one isOne, first other isOther]
    · intro one isOne other isOther
      obtain ⟨step, member, rfl⟩ := List.mem_map.mp isOther
      obtain ⟨-, index, -, number⟩ := mem_stepsFrom member
      rw [first one isOne]
      omega

theorem Step.line_of_mark {step : Step} {number : Nat} (named : Mark.line number ∈ step.marks) :
    number = step.line.number := by
  have ofPos {pos : Position} (isMark : Mark.line number ∈ pos.marks) : number = pos.line := by
    simpa [Position.marks] using isMark
  simp only [Step.marks, List.mem_append, List.cons_append, List.mem_cons, Mark.line.injEq] at named
  rcases named with isLine | (isStart | isText) | isHeader
  · exact isLine
  · exact ofPos isStart
  · split at isText
    · cases isText
    · exact ofPos isText
  · obtain ⟨keyword, -, other⟩ := Option.map_eq_some_iff.mp (Option.mem_toList.mp isHeader)
    cases other

theorem InLineOrder.concat {done : List Step} {step : Step}
    (ordered : InLineOrder (done ++ [step])) :
    InLineOrder done ∧ UpTo step.line.number (done.flatMap Step.marks) := by
  rw [InLineOrder, List.map_append, List.pairwise_append] at ordered
  obtain ⟨earlier, -, last⟩ := ordered
  refine ⟨earlier, fun number named => ?_⟩
  obtain ⟨former, isFormer, isMark⟩ := List.mem_flatMap.mp named
  rw [Step.line_of_mark isMark]
  exact last _ (List.mem_map.mpr ⟨former, isFormer, rfl⟩) _ (by simp)

theorem State.inOrder_stateAfter {done : List Step} (ordered : InLineOrder done) :
    (stateAfter done).InOrder := by
  induction done using List.reverseRecOn with
  | nil => exact ⟨⟨.nil _ _ _, .nil _ _ _, .nil _ _ _⟩, by simp [stateAfter]⟩
  | append_singleton done step ih =>
    obtain ⟨earlier, early⟩ := ordered.concat
    have marked : (stateAfter done).Marked (done.flatMap Step.marks) :=
      marked_stateAfter (List.Subset.refl _)
    rw [stateAfter_concat]
    cases current : (stateAfter done).current with
    | none => exact (ih earlier).step_of_closed marked early current
    | some scopes =>
      exact (ih earlier).step_of_open marked early (sound_opened done scopes current).1 current

def Step.placed (step : Step) : PlacedText :=
  ⟨step.text, step.pos⟩

namespace Scopes

variable {scopes next : Scopes} {step : Step} {done : List Step}

def Gathered (done : List Step) (scopes : Scopes) : Prop :=
  ∀ pending ∈ scopes.builder.pending, ∃ group : Group,
    pending = group.pending ∧ group.fragments.Sublist (done.map Step.placed)

structure Places (done : List Step) (scopes : Scopes) (step : Step) (group : Group)
    (added : Option Node) : Prop where
  fragments : ∃ waiting, waiting.Sublist (done.map Step.placed) ∧
    group.fragments = waiting ++ [step.placed]
  text : (scopes.builder.offered step.text step.pos).1 = group.text
  nodes : nodes (scopes.withCode step).body.statements =
    nodes scopes.pou.body.statements ++ added.toList
  line : ∀ node ∈ added, ∀ number ∈ node.line?, number = group.first.pos.line

theorem gathered_of_idle (idle : scopes.builder.pending = none) : scopes.Gathered done := by
  simp [Gathered, idle]

theorem offered_gathered (gathered : scopes.Gathered done) (step : Step) :
    ∃ (waiting : List PlacedText) (group : Group), waiting.Sublist (done.map Step.placed) ∧
      group.fragments = waiting ++ [step.placed] ∧
      (scopes.builder.offered step.text step.pos).1 = group.text ∧
      scopes.begun step = group.first.pos := by
  have alone : Group.text { first := step.placed } = step.text := Group.text_single _
  cases isPending : scopes.builder.pending with
  | none =>
    refine ⟨[], { first := step.placed }, List.nil_sublist _, rfl, ?_, ?_⟩
    · simp [Builder.offered, isPending, alone]
    · simp [begun, Builder.offered, isPending, Step.placed]
  | some pending =>
    obtain ⟨group, rfl, inside⟩ := gathered pending isPending
    by_cases isWord : (ConditionalWord.read? step.text).isSome
    · refine ⟨[], { first := step.placed }, List.nil_sublist _, rfl, ?_, ?_⟩
      · simp [Builder.offered, isPending, isWord, alone]
      · simp [begun, Builder.offered, isPending, isWord, Step.placed]
    · refine ⟨group.fragments, group.join step.placed, inside, rfl, ?_, ?_⟩
      · rw [Group.text_join]
        simp [Builder.offered, isPending, isWord, Group.pending, Step.placed]
      · simp [begun, Builder.offered, isPending, isWord, Group.pending, Group.join]

theorem gathered_next (sound : scopes.Sound) (gathered : scopes.Gathered done)
    (change : scopes.Change step next) : next.Gathered (done ++ [step]) := by
  have later {fragments : List PlacedText} (inside : fragments.Sublist (done.map Step.placed)) :
      fragments.Sublist ((done ++ [step]).map Step.placed) := by
    rw [List.map_append]
    exact inside.trans (List.sublist_append_left _ _)
  cases change with
  | varSection => exact gathered_of_idle rfl
  | openMember => exact gathered_of_idle rfl
  | closeMember => exact gathered_of_idle rfl
  | amend pou identity body =>
    intro pending isPending
    obtain ⟨group, isGroup, inside⟩ := gathered pending isPending
    exact ⟨group, isGroup, later inside⟩
  -- Only a fragment that is fed can join those that wait.
  | feed outcome pou copiedLine idle fed identity body =>
    intro pending isPending
    obtain ⟨cursor, tracks⟩ := sound.tracks
    obtain ⟨waiting, group, inside, split, text, start⟩ := offered_gathered gathered step
    rw [fed] at isPending
    obtain ⟨rfl, -⟩ := tracks.feed_waits isPending
    refine ⟨group, ?_, ?_⟩
    · rw [begun] at start
      rw [text, start]
      rfl
    · rw [split, List.map_append]
      exact inside.append (List.Sublist.refl _)

theorem places_of_gathered (sound : scopes.Sound) (gathered : scopes.Gathered done) (step : Step) :
    ∃ group added, scopes.Places done step group added := by
  obtain ⟨cursor, tracks⟩ := sound.tracks
  obtain ⟨added, grown, ofBegun⟩ := tracks.nodes_feed step.text step.pos
  obtain ⟨waiting, group, inside, split, text, start⟩ := offered_gathered gathered step
  refine ⟨group, added, ⟨waiting, inside, split⟩, text, ?_, ?_⟩
  · rw [(scopes.withCode_same step).2, grown]
  · intro node isAdded number isLine
    rw [ofBegun node isAdded number isLine, ← start]
    rfl

end Scopes

theorem State.gathered_stateAfter (done : List Step) (scopes : Scopes)
    (current : (stateAfter done).current = some scopes) : scopes.Gathered done := by
  induction done using List.reverseRecOn generalizing scopes with
  | nil => cases current
  | append_singleton done step ih =>
    rw [stateAfter_concat] at current
    cases before : (stateAfter done).current with
    | none =>
      obtain ⟨-, closed | ⟨header, -, opens⟩⟩ := State.step_of_closed before step
      · rw [closed] at current
        cases current
      · rw [opens] at current
        cases current
        exact Scopes.gathered_of_idle rfl
    | some earlier =>
      have sound := (sound_opened done earlier before).1
      rcases State.step_of_open before step with closed | ⟨-, next, nextCurrent, change⟩
      · rw [closed] at current
        cases current
      · rw [nextCurrent] at current
        cases current
        exact Scopes.gathered_next sound (ih earlier before) change

def CarriesFirstLine (steps : List Step) : Prop :=
  ∀ before step after scopes, steps = before ++ step :: after →
    (stateAfter before).current = some scopes → scopes.TakesAsCode step →
    ∃ group added, scopes.Places before step group added

theorem inOrder_parse (source : String) : (parse source).InOrder := by
  rw [← Document.inOrder_unreported, unreported_parse, Document.inOrder_unreported]
  exact (State.inOrder_stateAfter (inLineOrder_stepsFrom 0 none _)).model

theorem parse_inOrder (source : String) :
    (parse source).InOrder ∧ CarriesFirstLine (steps source) := by
  refine ⟨inOrder_parse source, fun before step after scopes split current isCode => ?_⟩
  exact Scopes.places_of_gathered (sound_opened before scopes current).1
    (State.gathered_stateAfter before scopes current) step

end StructuredText
