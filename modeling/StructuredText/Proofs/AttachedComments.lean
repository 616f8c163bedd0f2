import StructuredText.Proofs.Extension
import StructuredText.Proofs.FragmentCover
import StructuredText.Proofs.LineTexts
import StructuredText.Proofs.OpenSections
import StructuredText.Proofs.VariableLists

set_option autoImplicit false

namespace StructuredText

def IsBehind (parts : List Fragment) (index place : Nat) : Prop :=
  ∃ fragment ∈ parts[index]?, fragment.stop ≤ place ∧
    ∀ next ∈ parts[index + 1]?, place < next.start

instance (parts : List Fragment) (index place : Nat) : Decidable (IsBehind parts index place) :=
  inferInstanceAs (Decidable (∃ fragment ∈ parts[index]?, fragment.stop ≤ place ∧
    ∀ next ∈ parts[index + 1]?, place < next.start))

def IsBeforeOrInside (parts : List Fragment) (place : Nat) : Prop :=
  (∀ first ∈ parts.head?, place < first.start) ∨
    ∃ fragment ∈ parts, fragment.start ≤ place ∧ place < fragment.stop

section Behind

variable {parts : List Fragment} {place : Nat}

theorem isBehind_cons_succ {fragment : Fragment} {index : Nat} :
    IsBehind (fragment :: parts) (index + 1) place ↔ IsBehind parts index place := by
  simp [IsBehind]

theorem isBehind_cons_zero {fragment : Fragment} :
    IsBehind (fragment :: parts) 0 place ↔
      fragment.stop ≤ place ∧ ∀ next ∈ parts.head?, place < next.start := by
  simp [IsBehind, List.head?_eq_getElem?]

theorem exists_isBehind (begun : ∃ first ∈ parts.head?, first.start ≤ place)
    (outside : ∀ fragment ∈ parts, fragment.start ≤ place → fragment.stop ≤ place) :
    ∃ index, IsBehind parts index place := by
  induction parts with
  | nil => simp at begun
  | cons fragment parts ih =>
    obtain ⟨_, ⟨⟩, starts⟩ := begun
    obtain ⟨ends, others⟩ := List.forall_mem_cons.mp outside
    by_cases isLast : ∀ next ∈ parts.head?, place < next.start
    · exact ⟨0, isBehind_cons_zero.mpr ⟨ends starts, isLast⟩⟩
    · push Not at isLast
      obtain ⟨index, behind⟩ := ih isLast others
      exact ⟨index + 1, isBehind_cons_succ.mpr behind⟩

variable (ordered : parts.Pairwise fun one other => one.stop ≤ other.start)

include ordered

theorem stop_le_start {one other : Nat} {first second : Fragment} (earlier : one < other)
    (isFirst : parts[one]? = some first) (isSecond : parts[other]? = some second) :
    first.stop ≤ second.start := by
  obtain ⟨_, rfl⟩ := List.getElem?_eq_some_iff.mp isFirst
  obtain ⟨_, rfl⟩ := List.getElem?_eq_some_iff.mp isSecond
  exact List.pairwise_iff_getElem.mp ordered one other _ _ earlier

variable (forward : ∀ fragment ∈ parts, fragment.start ≤ fragment.stop)

include forward

namespace IsBehind

variable {index other : Nat} {fragment : Fragment} (behind : IsBehind parts index place)
  (isOther : parts[other]? = some fragment)

include behind isOther

theorem stop_le (upTo : other ≤ index) : fragment.stop ≤ place := by
  obtain ⟨last, isLast, ends, -⟩ := behind
  rcases Nat.lt_or_eq_of_le upTo with earlier | rfl
  · have apart := stop_le_start ordered earlier isOther isLast
    have goesOn := forward last (List.mem_of_getElem? isLast)
    omega
  · obtain rfl := Option.some.inj (isOther.symm.trans isLast)
    exact ends

theorem lt_start (later : index < other) : place < fragment.start := by
  obtain ⟨-, -, -, inFront⟩ := behind
  rcases Nat.lt_or_eq_of_le (Nat.succ_le_of_lt later) with beyond | rfl
  · obtain ⟨bound, -⟩ := List.getElem?_eq_some_iff.mp isOther
    have isNext := List.getElem?_eq_getElem (Nat.lt_trans beyond bound)
    have apart := stop_le_start ordered beyond isNext isOther
    have goesOn := forward _ (List.mem_of_getElem? isNext)
    have begins := inFront _ isNext
    omega
  · exact inFront fragment isOther

omit isOther in
theorem unique (alsoBehind : IsBehind parts other place) : index = other := by
  have notEarlier {one two : Nat} (isOne : IsBehind parts one place)
      (isTwo : IsBehind parts two place) : ¬ one < two := by
    intro earlier
    obtain ⟨last, isLast, ends, -⟩ := isTwo
    have begins := isOne.lt_start ordered forward isLast earlier
    have goesOn := forward last (List.mem_of_getElem? isLast)
    omega
  have first := notEarlier behind alsoBehind
  have second := notEarlier alsoBehind behind
  omega

end IsBehind

theorem forall_not_isBehind_iff :
    (∀ index, ¬ IsBehind parts index place) ↔ IsBeforeOrInside parts place := by
  constructor
  · intro nowhere
    by_contra neither
    simp only [IsBeforeOrInside, not_or, not_forall, not_exists, not_and, not_lt] at neither
    obtain ⟨⟨first, isFirst, begun⟩, outside⟩ := neither
    obtain ⟨index, behind⟩ := exists_isBehind ⟨first, isFirst, begun⟩ outside
    exact nowhere index behind
  · rintro (before | ⟨fragment, member, starts, ends⟩) index behind
    · cases parts with
      | nil =>
        obtain ⟨last, isLast, -⟩ := behind
        simp at isLast
      | cons first parts =>
        have stops := behind.stop_le ordered forward rfl (Nat.zero_le index)
        have goesOn := forward first List.mem_cons_self
        have starts := before first rfl
        omega
    · obtain ⟨other, isOther⟩ := List.mem_iff_getElem?.mp member
      rcases Nat.lt_or_ge index other with later | upTo
      · have begins := behind.lt_start ordered forward isOther later
        omega
      · have stops := behind.stop_le ordered forward isOther upTo
        omega

end Behind

def StrippedLine.Follows (line : StrippedLine) (index : Nat) (comment : LineComment) : Prop :=
  IsBehind (fragments line.code) index comment.start

instance (line : StrippedLine) (index : Nat) (comment : LineComment) :
    Decidable (line.Follows index comment) :=
  inferInstanceAs (Decidable (IsBehind (fragments line.code) index comment.start))

-- The texts of the comments behind a fragment, in order. A comment without a text has none.
def StrippedLine.notes (line : StrippedLine) (index : Nat) : List String :=
  (line.comments.filter fun comment => comment.text ≠ "" ∧ line.Follows index comment).map
    LineComment.text

def joinedNotes (texts : List String) : Option String :=
  if texts = [] then none else some (" ".intercalate texts)

theorem commentBetween_eq {line : StrippedLine} {index : Nat} {fragment : Fragment}
    (isPart : (fragments line.code)[index]? = some fragment) :
    line.commentBetween fragment.stop ((fragments line.code)[index + 1]?.map Fragment.start) =
      joinedNotes (line.notes index) := by
  have follows (comment : LineComment) : line.Follows index comment ↔
      fragment.stop ≤ comment.start ∧
        ∀ next ∈ (fragments line.code)[index + 1]?, comment.start < next.start := by
    simp [StrippedLine.Follows, IsBehind, isPart]
  have taken : line.comments.filter (fun comment => decide (fragment.stop ≤ comment.start) &&
      ((fragments line.code)[index + 1]?.map Fragment.start).all
        (fun bound => decide (comment.start < bound)) && comment.text != "") =
      line.comments.filter fun comment => comment.text ≠ "" ∧ line.Follows index comment := by
    refine List.filter_congr fun comment _ => ?_
    simp only [follows]
    rw [Bool.eq_iff_iff]
    cases (fragments line.code)[index + 1]? <;> simp [and_comm]
  rw [StrippedLine.commentBetween, taken, StrippedLine.notes, joinedNotes]
  simp

section Lines

variable (line : SourceLine)

theorem getElem?_lineSteps (parts : List Fragment) (index : Nat) :
    (lineSteps line parts)[index]? = parts[index]?.map fun fragment =>
      ⟨line, fragment, parts[index + 1]?.map Fragment.start⟩ := by
  induction parts generalizing index with
  | nil => rfl
  | cons fragment parts ih =>
    cases index with
    | zero => simp [lineSteps, List.head?_eq_getElem?]
    | succ index => simpa [lineSteps] using ih index

variable {line}

theorem comment_of_steps {earlier later : List Step} {step : Step}
    (place : line.steps = earlier ++ step :: later) :
    step.comment = joinedNotes (line.stripped.notes earlier.length) := by
  have isStep : line.steps[earlier.length]? = some step := by simp [place]
  rw [SourceLine.steps, getElem?_lineSteps] at isStep
  obtain ⟨fragment, isPart, rfl⟩ := Option.map_eq_some_iff.mp isStep
  exact commentBetween_eq isPart

def linesFrom (count : Nat) (carried : Option OpenComment) : List (List Char) → List SourceLine
  | [] => []
  | raw :: rest =>
    let first := strip carried raw (count + 1)
    ⟨raw, first.1, count + 1⟩ :: linesFrom (count + 1) first.2 rest

def sourceLines (source : String) : List SourceLine :=
  linesFrom 0 none (lines source.toList)

theorem map_raw_linesFrom (count : Nat) (carried : Option OpenComment) (raws : List (List Char)) :
    (linesFrom count carried raws).map SourceLine.raw = raws := by
  induction raws generalizing count carried with
  | nil => rfl
  | cons raw raws ih => simp [linesFrom, ih]

theorem stepsFrom_eq (count : Nat) (carried : Option OpenComment) (raws : List (List Char)) :
    stepsFrom count carried raws = (linesFrom count carried raws).flatMap SourceLine.steps := by
  induction raws generalizing count carried with
  | nil => rfl
  | cons raw raws ih =>
    rw [stepsFrom, linesFrom, List.flatMap_cons, ih]
    congr 1
    split
    · rename_i blank
      have noCode : fragments (strip carried raw (count + 1)).1.code = [] :=
        fragments_of_blank (by simpa [StrippedLine.isEmpty] using blank)
      simp [SourceLine.steps, noCode, lineSteps]
    · rfl

end Lines

theorem Scopes.comment_inputs (scopes : Scopes) (step : Step) :
    ∀ entry ∈ scopes.inputs step, entry.2.comment = none := by
  intro entry isInput
  rw [inputs] at isInput
  split at isInput
  · obtain ⟨v, isParameter, rfl⟩ := List.mem_map.mp isInput
    obtain ⟨parameter, -, read⟩ := List.mem_filterMap.mp isParameter
    cases parameter with
    | ok parameter => cases read; rfl
    | error text => cases read
  · cases isInput

namespace State

def Declares (state : State) (step : Step) (declaration : Declaration) : Prop :=
  (∃ scopes ∈ state.current, (scopes.varSection.bind (·.header.scope?)).isSome = true) ∧
    Declaration.read? step.text = some declaration

structure Attaches (state : State) (step : Step) (notes : List String) : Prop where
  declared : ∀ declaration, state.Declares step declaration →
    (state.stored step).map (fun entry => (entry.2.name, entry.2.comment)) =
      declaration.names.map fun name => (name, joinedNotes notes)
  other : (∀ declaration, ¬ state.Declares step declaration) →
    ∀ entry ∈ state.stored step, entry.2.comment = none

variable {state : State} {step : Step}

theorem stored_of_declares {declaration : Declaration}
    (declares : state.Declares step declaration) :
    (state.stored step).map (fun entry => (entry.2.name, entry.2.comment)) =
      declaration.names.map fun name => (name, step.comment) := by
  obtain ⟨⟨scopes, current, modelled⟩, read⟩ := declares
  obtain ⟨scope, isScope⟩ := Option.isSome_iff_exists.mp modelled
  have noBoundary : step.boundary? = none := Boundary.read?_of_declaration read
  rw [stored, Option.mem_def.mp current]
  simp [scopes.inputs_of_content step noBoundary, Scopes.declared, isScope, Step.vars, read]

theorem stored_of_not_declares (undeclared : ∀ declaration, ¬ state.Declares step declaration) :
    ∀ entry ∈ state.stored step, entry.2.comment = none := by
  cases current : state.current with
  | none => simp [stored, current]
  | some scopes =>
    have nothing : scopes.declared step = [] := by
      rw [Scopes.declared]
      split
      · rfl
      · rename_i scope isScope
        cases read : Declaration.read? step.text with
        | none => simp [Step.vars, read]
        | some declaration =>
          exact absurd ⟨⟨scopes, current, by simp [isScope]⟩, read⟩ (undeclared declaration)
    simp only [stored, current, nothing, List.nil_append, List.mem_map]
    rintro _ ⟨entry, isInput, rfl⟩
    exact scopes.comment_inputs step entry isInput

theorem declares_iff {done : List Step} {declaration : Declaration} :
    (stateAfter done).Declares step declaration ↔
      Declaration.read? step.text = some declaration ∧
        ∃ before opening after opened, done = before ++ opening :: after ∧
          (stateAfter before).opensSection? opening = some opened ∧
          (stateAfter (before ++ [opening])).keepsSection after = true ∧
          opened.header.scope?.isSome = true := by
  have inSection : (∃ scopes ∈ (stateAfter done).current,
      (scopes.varSection.bind (·.header.scope?)).isSome = true) ↔
      ∃ opened, (stateAfter done).varSection? = some opened ∧
        opened.header.scope?.isSome = true := by
    cases current : (stateAfter done).current with
    | none => simp [varSection?, current]
    | some scopes => cases isOpen : scopes.varSection <;> simp [varSection?, current, isOpen]
  rw [Declares, inSection, and_comm]
  refine and_congr_right fun _ => ⟨?_, ?_⟩
  · rintro ⟨opened, isOpen, modelled⟩
    obtain ⟨before, opening, after, split, opens, kept⟩ := openSection_iff.mp isOpen
    exact ⟨before, opening, after, opened, split, opens, kept, modelled⟩
  · rintro ⟨before, opening, after, opened, split, opens, kept, modelled⟩
    exact ⟨opened, openSection_iff.mpr ⟨before, opening, after, split, opens, kept⟩, modelled⟩

end State

structure AttachesComments (source : String) : Prop where
  lines : (sourceLines source).map SourceLine.raw = lines source.toList
  stored : ∀ list, (parse source).vars list =
    entriesOf list (State.storedBy {} ((sourceLines source).flatMap SourceLine.steps))
  attached : ∀ before line after, sourceLines source = before ++ line :: after →
    ∀ earlier step later, line.steps = earlier ++ step :: later →
      (stateAfter (before.flatMap SourceLine.steps ++ earlier)).Attaches step
        (line.stripped.notes earlier.length)
  once : ∀ line ∈ sourceLines source, ∀ comment one other, line.stripped.Follows one comment →
    line.stripped.Follows other comment → one = other
  nowhere : ∀ line ∈ sourceLines source, ∀ comment,
    (∀ index, ¬ line.stripped.Follows index comment) ↔
      IsBeforeOrInside (fragments line.stripped.code) comment.start

theorem ordered_fragments (code : List Char) :
    (fragments code).Pairwise fun one other => one.stop ≤ other.start :=
  pairwise_fragmentsFrom 0 (pieceTexts code)

theorem forward_fragments (code : List Char) :
    ∀ fragment ∈ fragments code, fragment.start ≤ fragment.stop := by
  intro fragment member
  rw [(standsIn_fragments member).stop]
  exact Nat.le_add_right _ _

/-- Each comment documents at most one declaration: the one whose fragment it stands behind, in
front of the next fragment. The variables of a declaration carry the texts of these comments. -/
theorem attachesComments (source : String) : AttachesComments source where
  lines := map_raw_linesFrom 0 none _
  stored list := by
    have empty : (State.model {}).vars list = [] := by
      obtain ⟨kind, number, part⟩ := list
      cases kind <;> rfl
    rw [← Document.vars_unreported, unreported_parse, Document.vars_unreported, stateAfter,
      State.vars_run, empty, List.nil_append, steps, stepsFrom_eq]
    rfl
  attached before line after _ earlier step later place :=
    ⟨fun declaration declares => by rw [State.stored_of_declares declares, comment_of_steps place],
      State.stored_of_not_declares⟩
  once line _ comment one other isOne isOther :=
    isOne.unique (ordered_fragments _) (forward_fragments _) isOther
  nowhere line _ comment := forall_not_isBehind_iff (ordered_fragments _) (forward_fragments _)

example :
    let document := parse "PROGRAM P VAR (* a *) x : INT; (* b *) // c\n// d\nEND_VAR END_PROGRAM\n"
    (document.vars ⟨.program, 0, .vars⟩).map (fun v => (v.name, v.comment)) =
      [("x", some "b c")] := by
  decide +kernel

-- The first comment stands in front of all fragments, the third inside one.
example :
    let line := (strip none "(* a *) x : INT; (* b *) y : (* c *) INT; // d".toList 1).1
    line.notes 0 = ["b"] ∧ line.notes 1 = ["d"] := by decide +kernel

end StructuredText
