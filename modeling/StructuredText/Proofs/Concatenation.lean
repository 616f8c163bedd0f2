import StructuredText.Proofs.ViewedReading

set_option autoImplicit false

namespace StructuredText

theorem lines_ne_nil {s : List Char} (nonempty : s ≠ []) : lines s ≠ [] := by
  fun_cases lines s with
  | case1 => exact absurd rfl nonempty
  | case2 rest => simp
  | case3 rest => simp
  | case4 c rest => cases lines rest <;> simp [consFirst]

theorem consFirst_append (c : Char) {pieces : List (List Char)} (nonempty : pieces ≠ [])
    (more : List (List Char)) : consFirst c (pieces ++ more) = consFirst c pieces ++ more := by
  cases pieces with
  | nil => exact absurd rfl nonempty
  | cons piece pieces => rfl

theorem lines_append_of_newline {s : List Char} (ends : s = [] ∨ s.getLast? = some '\n')
    (t : List Char) : lines (s ++ t) = lines s ++ lines t := by
  have later {c : Char} {rest : List Char} (ends : (c :: rest).getLast? = some '\n') :
      rest = [] ∨ rest.getLast? = some '\n' := by
    cases rest with
    | nil => exact .inl rfl
    | cons d rest => exact .inr (by simpa using ends)
  fun_induction lines s with
  | case1 => rfl
  | case2 rest ih =>
    have ends := later (ends.resolve_left (by simp))
    simp [lines, ih ends]
  | case3 rest ih =>
    have ends := later ((later (ends.resolve_left (by simp))).resolve_left (by simp))
    simp [lines, ih ends]
  | case4 c rest notNewline notReturn ih =>
    have ends := ends.resolve_left (by simp)
    have nonempty : rest ≠ [] := by
      rintro rfl
      simp_all
    rw [List.cons_append, lines, ih (later ends), consFirst_append c (lines_ne_nil nonempty)]
    · exact notNewline
    · intro followed isReturn split
      obtain ⟨d, rest, rfl⟩ := List.exists_cons_of_ne_nil nonempty
      exact notReturn rest isReturn (by rw [(List.cons.inj split).1])

namespace Document

instance : Append Document where
  append before after :=
    { functionBlocks := before.functionBlocks ++ after.functionBlocks
      programs := before.programs ++ after.programs
      functions := before.functions ++ after.functions
      diagnostics := before.diagnostics ++ after.diagnostics }

variable (before after : Document)

theorem append_eq :
    before ++ after =
      { functionBlocks := before.functionBlocks ++ after.functionBlocks
        programs := before.programs ++ after.programs
        functions := before.functions ++ after.functions
        diagnostics := before.diagnostics ++ after.diagnostics } := rfl

theorem append_report (diagnostics : List Diagnostic) :
    (before ++ after).report diagnostics = before ++ after.report diagnostics := by
  simp [append_eq, report]

theorem append_addPou (pou : OpenPou) :
    (before ++ after).addPou pou = before ++ after.addPou pou := by
  unfold addPou
  cases pou.closeMember <;> simp [append_eq]

theorem append_empty : before ++ ({} : Document) = before := by
  simp [append_eq]

end Document

namespace State

def after (before : Document) (state : State) : State :=
  { state with document := before ++ state.document }

def outcomeAfter (before : Document) (outcome : State × Option Problem) :
    State × Option Problem :=
  (outcome.1.after before, outcome.2)

variable (before : Document) (state : State)

@[simp] theorem after_current : (state.after before).current = state.current := rfl

@[simp] theorem after_setScopes (scopes : Scopes) :
    (state.after before).setScopes scopes = (state.setScopes scopes).after before := rfl

@[simp] theorem after_report (diagnostics : List Diagnostic) :
    (state.after before).report diagnostics = (state.report diagnostics).after before := by
  simp only [report, after, Document.append_report]

@[simp] theorem after_dropPending :
    (state.after before).dropPending = state.dropPending.after before := by
  simp only [dropPending, after_current, after_setScopes, after_report]
  cases state.current <;> rfl

@[simp] theorem after_closePou : (state.after before).closePou = state.closePou.after before := by
  simp only [closePou, after_current]
  cases state.current with
  | none => rfl
  | some scopes => simp only [after, Document.append_addPou, Document.append_report]

theorem after_closing (word : ClosingWord) :
    (state.after before).closing word = outcomeAfter before (state.closing word) := by
  simp only [closing, after_current, after_setScopes, after_report, after_closePou]
  cases state.current with
  | none => rfl
  | some scopes =>
    cases word with
    | var | get | set | pou kind =>
      simp only
      split <;> rfl
    | method | property =>
      simp only
      split
      · rfl
      · split <;> rfl

theorem after_openMember (member : Member) (problems : List Diagnostic) :
    (state.after before).openMember member problems =
      outcomeAfter before (state.openMember member problems) := by
  simp only [openMember, after_current, after_setScopes, after_report]
  cases state.current with
  | none => rfl
  | some scopes =>
    simp only
    split <;> rfl

theorem after_boundary (pos : Position) (boundary : Boundary) :
    (state.after before).boundary pos boundary =
      outcomeAfter before (state.boundary pos boundary) := by
  cases boundary with
  | closing word => exact state.after_closing before word
  | pou header =>
    simp only [State.boundary, openPou, after_current, after_setScopes]
    cases state.current <;> rfl
  | method header => exact state.after_openMember before _ _
  | property header => exact state.after_openMember before _ _
  | varSection header =>
    simp only [State.boundary, openSection, after_current, after_setScopes, after_report]
    cases state.current <;> rfl

theorem after_content (text : List Char) (pos : Position) (line : SourceLine)
    (comment : Option String) :
    (state.after before).content text pos line comment =
      outcomeAfter before (state.content text pos line comment) := by
  simp only [content, declare, statement, after_current, after_setScopes, after_report]
  cases state.current with
  | none => rfl
  | some scopes =>
    simp only
    split
    · split
      · rfl
      · split <;> rfl
    · rfl
    · split <;> rfl

theorem after_settle (outcome : State × Option Problem) (start : Position) :
    settle (outcomeAfter before outcome) start = (settle outcome start).after before :=
  after_report before outcome.1 _

theorem after_step (step : Step) :
    (state.after before).step step = (state.step step).after before := by
  by_cases blank : step.text = []
  · rw [step_of_blank _ blank, step_of_blank _ blank]
  · cases read : step.boundary? with
    | some boundary =>
      rw [step_of_boundary _ read, step_of_boundary _ read, after_dropPending, after_boundary,
        after_settle]
    | none =>
      rw [step_of_content _ blank read, step_of_content _ blank read, after_content, after_settle]

theorem after_run (steps : List Step) :
    (state.after before).run steps = (state.run steps).after before := by
  induction steps generalizing state with
  | nil => rfl
  | cons step steps ih => rw [run_cons, run_cons, after_step, ih]

theorem after_finish : (state.after before).finish = before ++ state.finish := by
  simp only [finish, after_current, after_closePou]
  cases state.current with
  | none => rfl
  | some scopes => exact Document.append_report before state.closePou.document _

end State

section Offset

def SameStyle (one other : Option OpenComment) : Prop :=
  one.map OpenComment.style = other.map OpenComment.style

theorem strip_of_sameStyle {one other : Option OpenComment} (same : SameStyle one other)
    (raw : List Char) (number shifted : Nat) :
    (strip one raw number).1 = (strip other raw shifted).1 ∧
      SameStyle (strip one raw number).2 (strip other raw shifted).2 := by
  have ended (parts : List Segment) :
      SameStyle (strip.finish number parts).2 (strip.finish shifted parts).2 := by
    cases open? : parts.getLast?.bind Segment.stillOpen? <;> simp [SameStyle, strip.finish, open?]
  cases one with
  | none =>
    obtain rfl : other = none := Option.map_eq_none_iff.mp same.symm
    exact ⟨rfl, ended _⟩
  | some comment =>
    obtain ⟨another, rfl, style⟩ := Option.map_eq_some_iff.mp same.symm
    simp only [strip, style]
    split
    · exact ⟨rfl, ended _⟩
    · exact ⟨rfl, same⟩

theorem stripLines_of_sameStyle {one other : Option OpenComment} (same : SameStyle one other)
    (raws : List (List Char)) (count shifted : Nat) :
    SameStyle (stripLines count one raws).2 (stripLines shifted other raws).2 := by
  induction raws generalizing one other count shifted with
  | nil => exact same
  | cons raw raws ih => exact ih (strip_of_sameStyle same raw _ _).2 _ _

theorem alike_stepsFrom_shift {one other : Option OpenComment} (same : SameStyle one other)
    (raws : List (List Char)) (start count : Nat) :
    List.Forall₂ (Step.Alike .full (.shift count)) (stepsFrom (start + count) one raws)
      (stepsFrom start other raws) := by
  induction raws generalizing one other start with
  | nil => exact .nil
  | cons raw raws ih =>
    have next : start + count + 1 = start + 1 + count := by omega
    obtain ⟨stripped, later⟩ := strip_of_sameStyle same raw (start + 1 + count) (start + 1)
    have alike (stripped : StrippedLine) : SourceLine.Alike .full (.shift count)
        ⟨raw, stripped, start + 1 + count⟩ ⟨raw, stripped, start + 1⟩ :=
      ⟨rfl, fun _ => rfl, rfl, fun _ _ => rfl, rfl⟩
    simp only [stepsFrom, next]
    rw [stripped]
    exact List.rel_append (alike _).steps (ih later _)

theorem unterminated_shift (count : Nat) (raws : List (List Char)) :
    unterminated count none raws =
      (unterminated 0 none raws).map (Diagnostic.viewed (.shift count)) := by
  have same : SameStyle (stripLines count none raws).2 (stripLines 0 none raws).2 :=
    stripLines_of_sameStyle rfl raws count 0
  unfold unterminated
  cases isOpen : (stripLines 0 none raws).2 with
  | none =>
    rw [SameStyle, isOpen] at same
    rw [Option.map_eq_none_iff.mp same]
    rfl
  | some comment =>
    rw [SameStyle, isOpen] at same
    obtain ⟨other, found, -⟩ := Option.map_eq_some_iff.mp same
    rw [found]
    simp [Diagnostic.viewed, View.shift, Nat.add_comm]

end Offset

def Problem.isUnended : Problem → Bool
  | unclosed .functionBlock _ | unclosed .program _ | unclosed .function _
  | unterminatedComment => true
  | _ => false

section Complete

variable {progress : Progress}
  (complete : ∀ diagnostic ∈ progress.finish.diagnostics, diagnostic.problem.isUnended = false)

include complete

theorem Progress.comment_of_complete : progress.comment = none := by
  cases isOpen : progress.comment with
  | none => rfl
  | some opened =>
    have reported : Problem.isUnended .unterminatedComment = false :=
      complete ⟨.unterminatedComment, progress.count, none⟩
        (by simp [Progress.finish, Document.report, isOpen])
    cases reported

theorem Progress.current_of_complete : progress.state.current = none := by
  cases isOpen : progress.state.current with
  | none => rfl
  | some scopes =>
    have reported :
        (Problem.unclosed scopes.pou.kind.construct scopes.pou.name).isUnended = false :=
      complete ((Problem.unclosed scopes.pou.kind.construct scopes.pou.name).at scopes.pou.pos)
        (by simp [Progress.finish, State.finish, Document.report, isOpen])
    cases kind : scopes.pou.kind <;>
      · rw [kind] at reported
        cases reported

-- A source that ends all that it begins leaves the reader as it was, but for what it has read.
theorem Progress.eq_of_complete :
    progress = { count := progress.count, state := { document := progress.finish } } := by
  have outside := comment_of_complete complete
  have closed := current_of_complete complete
  obtain ⟨count, comment, ⟨document, current⟩⟩ := progress
  obtain rfl : comment = none := outside
  obtain rfl : current = none := closed
  simp [Progress.finish, State.finish, Document.report]

end Complete

theorem parse_append {before : String} (ends : before = "" ∨ before.toList.getLast? = some '\n')
    (complete : ∀ diagnostic ∈ (parse before).diagnostics, diagnostic.problem.isUnended = false)
    (after : String) :
    parse (before ++ after) =
      parse before ++ (parse after).viewed (.shift (lines before.toList).length) := by
  let first := lines before.toList
  let second := lines after.toList
  have ended : before.toList = [] ∨ before.toList.getLast? = some '\n' := by
    simpa using ends
  have split : lines (before ++ after).toList = first ++ second := by
    rw [String.toList_append, lines_append_of_newline ended]
  have start : State.viewed .full {} = State.viewed (.shift first.length) {} := rfl
  have same : SameStyle none none := rfl
  have alike := State.run_alike start (alike_stepsFrom_shift same second 0 first.length)
  have shifted : (State.run {} (stepsFrom first.length none second)).finish =
      (State.run {} (stepsFrom 0 none second)).finish.viewed (.shift first.length) := by
    rw [Nat.zero_add] at alike
    rw [← Document.viewed_full (State.finish _), ← State.finish_viewed, alike,
      State.finish_viewed]
  -- The first source leaves nothing open, so the second is read onto its document.
  have onto : ({ document := parse before } : State) = State.after (parse before) {} := by
    simp [State.after, Document.append_empty]
  calc parse (before ++ after)
      = (second.foldl Progress.line (first.foldl Progress.line {})).finish := by
        rw [parse, split, List.foldl_append]
    _ = (second.foldl Progress.line
          { count := first.length, state := { document := parse before } }).finish := by
        rw [Progress.eq_of_complete complete, Progress.count_foldl, Nat.zero_add]
        rfl
    _ = (State.run (State.after (parse before) {})
          (stepsFrom first.length none second)).finish.report
            (unterminated first.length none second) := by
        rw [Progress.finish_foldl, onto]
    _ = parse before ++ (((State.run {} (stepsFrom 0 none second)).finish.viewed
          (.shift first.length)).report
            ((unterminated 0 none second).map (Diagnostic.viewed (.shift first.length)))) := by
        rw [State.after_run, State.after_finish, shifted, unterminated_shift,
          Document.append_report]
    _ = parse before ++ (parse after).viewed (.shift first.length) := by
        rw [Document.report_viewed, parse_eq_parseLines after, parseLines_eq_run]

def faultySource : String :=
  "FUNCTION_BLOCK F\nMETHOD M\nVAR\n  x ;\nEND_FUNCTION_BLOCK\nEND_METHOD\n"

def openSource : String :=
  "PROGRAM P\nVAR\n  y : INT; // kept\nEND_VAR\nIF y THEN (* open\n"

theorem parse_faulty_append_open :
    (∀ diagnostic ∈ (parse faultySource).diagnostics, diagnostic.problem.isUnended = false) ∧
      parse (faultySource ++ openSource) =
        parse faultySource ++
          (parse openSource).viewed (.shift (lines faultySource.toList).length) := by
  have complete : ∀ diagnostic ∈ (parse faultySource).diagnostics,
      diagnostic.problem.isUnended = false := by
    decide +kernel
  exact ⟨complete, parse_append (.inr (by decide +kernel)) complete openSource⟩

end StructuredText
