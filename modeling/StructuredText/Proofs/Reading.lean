import StructuredText.Document.Parse

set_option autoImplicit false

namespace StructuredText

structure Step where
  line : SourceLine
  fragment : Fragment
  next : Option Nat

namespace Step

def text (step : Step) : List Char :=
  withoutPragmas step.fragment.text

def boundary? (step : Step) : Option Boundary :=
  Boundary.read? step.text

def pos (step : Step) : Position :=
  step.line.position (step.fragment.stop - width step.text)

def comment (step : Step) : Option String :=
  step.line.stripped.commentBetween step.fragment.stop step.next

def start (step : Step) : Position :=
  step.line.position step.fragment.start

theorem comment_eq_none {step : Step} (uncommented : step.line.stripped.comments = []) :
    step.comment = none := by
  simp [Step.comment, StrippedLine.commentBetween, uncommented]

theorem text_ne_nil {step : Step} {boundary : Boundary} (read : step.boundary? = some boundary) :
    step.text ≠ [] := by
  intro blank
  have nothing : Boundary.read? [] = none := by decide
  rw [Step.boundary?, blank, nothing] at read
  cases read

end Step

namespace State

def step (state : State) (step : Step) : State :=
  let (state, problem) := state.fragment step.line step.fragment step.next
  state.report (problem.map fun problem => problem.at step.start).toList

def run (state : State) (steps : List Step) : State :=
  steps.foldl State.step state

theorem fragment_eq (state : State) (step : Step) :
    state.fragment step.line step.fragment step.next =
      if step.text = [] then (state, none)
      else
        match step.boundary? with
        | some boundary => state.dropPending.boundary step.pos boundary
        | none => state.content step.text step.pos step.line step.comment := rfl

def settle (outcome : State × Option Problem) (start : Position) : State :=
  outcome.1.report (outcome.2.map fun problem => problem.at start).toList

theorem step_of_boundary (state : State) {step : Step} {boundary : Boundary}
    (read : step.boundary? = some boundary) :
    state.step step = settle (state.dropPending.boundary step.pos boundary) step.start := by
  have reads := state.fragment_eq step
  rw [if_neg (Step.text_ne_nil read), read] at reads
  exact congrArg (settle · step.start) reads

theorem step_of_blank (state : State) {step : Step} (blank : step.text = []) :
    state.step step = state := by
  have reads := state.fragment_eq step
  rw [if_pos blank] at reads
  simp [State.step, reads, report, Document.report]

theorem step_of_content (state : State) {step : Step} (nonempty : step.text ≠ [])
    (read : step.boundary? = none) :
    state.step step =
      settle (state.content step.text step.pos step.line step.comment) step.start := by
  have reads := state.fragment_eq step
  rw [if_neg nonempty, read] at reads
  exact congrArg (settle · step.start) reads

theorem content_of_statement {state : State} {scopes : Scopes} {text : List Char}
    (current : state.current = some scopes) (noSection : scopes.varSection = none)
    (noAccessor : Accessor.read? text = none) (pos : Position) (line : SourceLine)
    (comment : Option String) :
    state.content text pos line comment = state.statement scopes text pos line := by
  simp only [content, current, noSection, noAccessor]
  rcases scopes.pou with ⟨block, _ | (method | property)⟩ | program | function <;> rfl

@[simp] theorem run_nil (state : State) : state.run [] = state := rfl

@[simp] theorem run_cons (state : State) (step : Step) (steps : List Step) :
    state.run (step :: steps) = (state.step step).run steps := rfl

@[simp] theorem run_append (state : State) (before after : List Step) :
    state.run (before ++ after) = (state.run before).run after := by
  simp [run]

end State

def lineSteps (line : SourceLine) : List Fragment → List Step
  | [] => []
  | fragment :: rest => ⟨line, fragment, rest.head?.map Fragment.start⟩ :: lineSteps line rest

theorem State.fragments_eq_run (state : State) (line : SourceLine) (fragments : List Fragment) :
    state.fragments line fragments = state.run (lineSteps line fragments) := by
  induction fragments generalizing state with
  | nil => rfl
  | cons fragment rest ih =>
    simp only [State.fragments, lineSteps, run_cons]
    rw [ih]
    rfl

def SourceLine.steps (line : SourceLine) : List Step :=
  lineSteps line (fragments line.stripped.code)

def stepsFrom (count : Nat) (comment : Option OpenComment) : List (List Char) → List Step
  | [] => []
  | raw :: rest =>
    let stripped := (strip comment raw (count + 1)).1
    let steps :=
      if stripped.isEmpty then [] else SourceLine.steps ⟨raw, stripped, count + 1⟩
    steps ++ stepsFrom (count + 1) (strip comment raw (count + 1)).2 rest

def steps (source : String) : List Step :=
  stepsFrom 0 none (lines source.toList)

theorem Progress.state_line (progress : Progress) (raw : List Char) :
    (progress.line raw).state =
      progress.state.run (stepsFrom progress.count progress.comment [raw]) := by
  simp only [Progress.line, stepsFrom, List.append_nil]
  split
  · rfl
  · exact State.fragments_eq_run ..

theorem Progress.state_foldl (progress : Progress) (raws : List (List Char)) :
    (raws.foldl Progress.line progress).state =
      progress.state.run (stepsFrom progress.count progress.comment raws) := by
  induction raws generalizing progress with
  | nil => rfl
  | cons raw rest ih =>
    have first := progress.state_line raw
    simp only [stepsFrom, List.append_nil] at first
    rw [List.foldl_cons, ih, first, stepsFrom, State.run_append]
    rfl

theorem Progress.count_foldl (progress : Progress) (raws : List (List Char)) :
    (raws.foldl Progress.line progress).count = progress.count + raws.length := by
  induction raws generalizing progress with
  | nil => rfl
  | cons raw raws ih =>
    rw [List.foldl_cons, ih, List.length_cons]
    simp only [Progress.line]
    omega

def stripLines (count : Nat) (carried : Option OpenComment) :
    List (List Char) → List StrippedLine × Option OpenComment
  | [] => ([], carried)
  | raw :: rest =>
    let first := strip carried raw (count + 1)
    let others := stripLines (count + 1) first.2 rest
    (first.1 :: others.1, others.2)

theorem Progress.comment_foldl (progress : Progress) (raws : List (List Char)) :
    (raws.foldl Progress.line progress).comment =
      (stripLines progress.count progress.comment raws).2 := by
  induction raws generalizing progress with
  | nil => rfl
  | cons raw raws ih =>
    rw [List.foldl_cons, ih]
    rfl

def unterminated (count : Nat) (carried : Option OpenComment) (raws : List (List Char)) :
    List Diagnostic :=
  ((stripLines count carried raws).2.map fun _ =>
    ⟨.unterminatedComment, count + raws.length, none⟩).toList

theorem Progress.finish_foldl (progress : Progress) (raws : List (List Char)) :
    (raws.foldl Progress.line progress).finish =
      (progress.state.run (stepsFrom progress.count progress.comment raws)).finish.report
        (unterminated progress.count progress.comment raws) := by
  rw [Progress.finish, progress.state_foldl, progress.comment_foldl, progress.count_foldl]
  rfl

def parseLines (raws : List (List Char)) : Document :=
  (raws.foldl Progress.line {}).finish

theorem parseLines_eq_run (raws : List (List Char)) :
    parseLines raws =
      (State.run {} (stepsFrom 0 none raws)).finish.report (unterminated 0 none raws) :=
  Progress.finish_foldl {} raws

theorem parse_eq_parseLines (source : String) :
    parse source = parseLines (lines source.toList) := rfl

theorem parse_eq_run (source : String) :
    ∃ unterminated : List Diagnostic,
      (∀ diagnostic ∈ unterminated, diagnostic.problem = .unterminatedComment) ∧
      parse source = (State.run {} (steps source)).finish.report unterminated := by
  refine ⟨StructuredText.unterminated 0 none (lines source.toList), ?_, parseLines_eq_run _⟩
  intro diagnostic member
  simp only [StructuredText.unterminated, Option.mem_toList, Option.map_eq_some_iff] at member
  obtain ⟨_, _, rfl⟩ := member
  rfl

end StructuredText
