import StructuredText.Proofs.PlainText
import StructuredText.Proofs.StructuralDiagnostics
import StructuredText.Proofs.ViewedReading

set_option autoImplicit false

namespace StructuredText

theorem Segment.next_of_string {c close : Char} (opens : stringClose? c = some close)
    (s : List Char) :
    next c s = (code (c :: (splitQuoted close s).1), (splitQuoted close s).2) := by
  simp [next, opens]

theorem Segment.isCode_block (style : CommentStyle) (s : List Char) :
    (block style s).1.isCode = false := by
  simp only [block]
  split <;> rfl

theorem comment_of_not_apart {c : Char} {s : List Char} (touches : ¬∀ d ∈ s.head?, Apart c d) :
    ∃ rest, (c = '/' ∧ s = '/' :: rest) ∨ (c = '(' ∧ s = '*' :: rest) ∨
      (c = '/' ∧ s = '*' :: rest) := by
  simp only [not_forall, Apart] at touches
  obtain ⟨d, first, touches⟩ := touches
  obtain ⟨rest, rfl⟩ : ∃ rest, s = d :: rest := List.head?_eq_some_iff.mp first
  refine ⟨rest, ?_⟩
  simp only [List.cons.injEq, and_true]
  tauto

theorem Segment.next_of_unquoted {c : Char} (unquoted : stringClose? c = none) (s : List Char) :
    (∀ d ∈ s.head?, Apart c d) ∧ next c s = (code [c], s) ∨ (next c s).1.isCode = false := by
  by_cases apart : ∀ d ∈ s.head?, Apart c d
  · exact .inl ⟨apart, next_of_apart unquoted apart⟩
  · right
    obtain ⟨rest, ⟨rfl, rfl⟩ | ⟨rfl, rfl⟩ | ⟨rfl, rfl⟩⟩ := comment_of_not_apart apart
    · rfl
    · exact isCode_block .paren rest
    · exact isCode_block .slash rest

theorem Segment.next_text_cons (c : Char) (s : List Char) :
    ∃ tail, (next c s).1.text = c :: tail := by
  have whole := next_text c s
  cases isText : (next c s).1.text with
  | nil =>
    have shorter := next_length_le c s
    rw [isText, List.nil_append] at whole
    rw [whole, List.length_cons] at shorter
    omega
  | cons d tail =>
    rw [isText, List.cons_append] at whole
    rw [(List.cons.inj whole).1]
    exact ⟨tail, rfl⟩

def blankedCode (s : List Char) : List Char :=
  (segments s).flatMap Segment.blanked

theorem blankedCode_nil : blankedCode [] = [] := by
  simp [blankedCode, segments]

theorem blankedCode_cons (c : Char) (s : List Char) :
    blankedCode (c :: s) = (Segment.next c s).1.blanked ++ blankedCode (Segment.next c s).2 := by
  rw [blankedCode, segments, List.flatMap_cons]
  rfl

theorem head_blankedCode (s : List Char) :
    (blankedCode s).head? = s.head? ∨ (blankedCode s).head? = some ' ' := by
  cases s with
  | nil => simp [blankedCode, segments]
  | cons c s =>
    obtain ⟨tail, isText⟩ := Segment.next_text_cons c s
    rw [blankedCode_cons]
    cases isPart : (Segment.next c s).1 with
    | code text =>
      left
      rw [isPart, Segment.text] at isText
      simp [Segment.blanked, isText]
    | comment text note stillOpen =>
      right
      rw [isPart, Segment.text] at isText
      have wide : width text ≠ 0 := by
        have positive := c.utf8Size_pos
        rw [isText, width_cons]
        omega
      simp [Segment.blanked, List.head?_replicate, wide]

theorem apart_blankedCode {c : Char} {s : List Char} (apart : ∀ d ∈ s.head?, Apart c d) :
    ∀ d ∈ (blankedCode s).head?, Apart c d := by
  rcases head_blankedCode s with same | space
  · rw [same]
    exact apart
  · rw [space]
    simp [Apart]

theorem uncommented_nil : Uncommented [] := by
  simp [Uncommented, segments]

theorem uncommented_of_next {c : Char} {s text rest : List Char}
    (next : Segment.next c s = (.code text, rest)) (later : Uncommented rest) :
    Uncommented (c :: s) := by
  intro part member
  rw [segments, next] at member
  rcases List.mem_cons.mp member with rfl | member
  · rfl
  · exact later part member

theorem Uncommented.replicate_append {s : List Char} (uncommented : Uncommented s) (count : Nat) :
    Uncommented (List.replicate count ' ' ++ s) := by
  induction count with
  | zero => exact uncommented
  | succ count ih =>
    rw [List.replicate_succ, List.cons_append]
    exact uncommented_of_next (Segment.next_of_apart (by decide) (by simp [Apart])) ih

theorem uncommented_blankedCode (s : List Char) : Uncommented (blankedCode s) := by
  fun_induction segments s with
  | case1 =>
    rw [blankedCode_nil]
    exact uncommented_nil
  | case2 c s ih =>
    rw [blankedCode_cons]
    cases opens : stringClose? c with
    | some close =>
      rw [Segment.next_of_string opens] at ih ⊢
      rcases splitQuoted_ends (quoteClose?_ne_escape (quoteClose?_of_string opens)) s with
        ends | ⟨whole, -⟩
      · have next (t : List Char) : Segment.next c ((splitQuoted close s).1 ++ t) =
            (.code (c :: (splitQuoted close s).1), t) := by
          rw [Segment.next_of_string opens, ends]
        exact uncommented_of_next (next _) ih
      · have next : Segment.next c s = (.code (c :: s), []) := by
          rw [Segment.next_of_string opens, whole]
        rw [whole, blankedCode_nil, List.append_nil]
        exact uncommented_of_next next uncommented_nil
    | none =>
      rcases Segment.next_of_unquoted opens s with ⟨apart, next⟩ | isComment
      · rw [next] at ih ⊢
        exact uncommented_of_next (Segment.next_of_apart opens (apart_blankedCode apart)) ih
      · cases isPart : (Segment.next c s).1 with
        | code text =>
          rw [isPart] at isComment
          cases isComment
        | comment text note stillOpen => exact ih.replicate_append (width text)

theorem uncommented_strip (carried : Option OpenComment) (line : List Char) (number : Nat) :
    Uncommented (strip carried line number).1.code := by
  unfold strip
  split
  · exact uncommented_blankedCode line
  · split
    · rename_i note rest split
      exact (uncommented_blankedCode rest).replicate_append _
    · exact uncommented_nil.replicate_append (width line)

def codeLines (raws : List (List Char)) : List (List Char) :=
  (stripLines 0 none raws).1.map StrippedLine.code

theorem uncommented_stripLines (count : Nat) (carried : Option OpenComment)
    (raws : List (List Char)) :
    ∀ code ∈ (stripLines count carried raws).1.map StrippedLine.code, Uncommented code := by
  induction raws generalizing count carried with
  | nil => simp [stripLines]
  | cons raw raws ih =>
    intro code member
    rcases List.mem_cons.mp member with rfl | member
    · exact uncommented_strip carried raw (count + 1)
    · exact ih _ _ code member

theorem stripLines_of_uncommented {raws : List (List Char)}
    (uncommented : ∀ raw ∈ raws, Uncommented raw) (count : Nat) :
    stripLines count none raws = (raws.map fun raw => ⟨raw, []⟩, none) := by
  induction raws generalizing count with
  | nil => rfl
  | cons raw raws ih =>
    have first := (uncommented raw List.mem_cons_self).strip (count + 1)
    have others := ih (fun other member => uncommented other (List.mem_cons_of_mem raw member))
    simp only [stripLines, first, others, List.map_cons]

theorem SourceLine.alike_code (line : SourceLine) :
    line.Alike .byLine .byLine ⟨line.stripped.code, ⟨line.stripped.code, []⟩, line.number⟩ :=
  ⟨rfl, fun _ => rfl, rfl, fun _ _ => rfl, rfl⟩

theorem alike_stepsFrom_code (count : Nat) (carried : Option OpenComment)
    (raws : List (List Char)) :
    List.Forall₂ (Step.Alike .byLine .byLine) (stepsFrom count carried raws)
      (stepsFrom count none ((stripLines count carried raws).1.map StrippedLine.code)) := by
  induction raws generalizing count carried with
  | nil => exact .nil
  | cons raw raws ih =>
    have again := (uncommented_strip carried raw (count + 1)).strip (count + 1)
    simp only [stripLines, List.map_cons, stepsFrom, again]
    exact List.rel_append
      (SourceLine.alike_code ⟨raw, (strip carried raw (count + 1)).1, count + 1⟩).steps (ih _ _)

theorem comments_of_mem_stepsFrom {raws : List (List Char)}
    (uncommented : ∀ raw ∈ raws, Uncommented raw) (count : Nat) :
    ∀ step ∈ stepsFrom count none raws, step.line.stripped.comments = [] := by
  have ofLine {line : SourceLine} (parts : List Fragment) :
      ∀ step ∈ lineSteps line parts, step.line = line := by
    induction parts with
    | nil => simp [lineSteps]
    | cons part parts ih => simpa [lineSteps] using ih
  induction raws generalizing count with
  | nil => simp [stepsFrom]
  | cons raw raws ih =>
    intro step member
    have bare := (uncommented raw List.mem_cons_self).strip (count + 1)
    simp only [stepsFrom, bare, List.mem_append] at member
    rcases member with first | later
    · split at first
      · cases first
      · rw [ofLine _ step first]
    · have others : ∀ other ∈ raws, Uncommented other :=
        fun other inside => uncommented other (List.mem_cons_of_mem raw inside)
      exact ih others _ step later

def noComment (diagnostics : List Diagnostic) : Bool :=
  diagnostics.all fun diagnostic => diagnostic.problem != .unterminatedComment

@[simp] theorem noComment_nil : noComment [] = true := rfl

@[simp] theorem noComment_at (problem : Problem) (pos : Position) :
    noComment [problem.at pos] = (problem != .unterminatedComment) := by
  simp [noComment, Problem.at]

@[simp] theorem noComment_append (before after : List Diagnostic) :
    noComment (before ++ after) = (noComment before && noComment after) :=
  List.all_append

theorem Problem.ne_comment_of_isOfStatement {problem : Problem}
    (ofStatement : problem.isOfStatement = true) : problem ≠ .unterminatedComment := by
  rintro rfl
  cases ofStatement

@[simp] theorem Builder.noComment_pending (builder : Builder) :
    noComment (builder.pending.map Pending.unterminated).toList = true := by
  cases builder.pending <;> rfl

@[simp] theorem Scopes.noComment_unfinished (scopes : Scopes) :
    noComment scopes.unfinished = true := by
  obtain ⟨pou, varSection, ⟨frames, blocks, pending⟩, copiedLine⟩ := scopes
  cases varSection <;> cases pending <;> cases frames <;> rfl

@[simp] theorem Scopes.noComment_unclosed (scopes : Scopes) : noComment scopes.unclosed = true := by
  rw [unclosed, noComment_append, noComment_unfinished]
  cases scopes.pou.member? <;> rfl

namespace State

variable {state : State}

def SparesComments (outcome : State × Option Problem) : Prop :=
  noComment outcome.1.document.diagnostics = true ∧ outcome.2 ≠ some .unterminatedComment

theorem SparesComments.settle {outcome : State × Option Problem} (spares : SparesComments outcome)
    (start : Position) : noComment (settle outcome start).document.diagnostics = true := by
  obtain ⟨state, problem⟩ := outcome
  obtain ⟨reported, failed⟩ := spares
  cases problem with
  | none => simpa [State.settle, report] using reported
  | some problem => simpa [State.settle, report, reported] using failed

section Operations

variable (code : noComment state.document.diagnostics = true)

include code

theorem noComment_dropPending : noComment state.dropPending.document.diagnostics = true := by
  unfold dropPending
  split
  · exact code
  · simp [report, setScopes, Builder.dropPending, code]

theorem noComment_closePou : noComment state.closePou.document.diagnostics = true := by
  unfold closePou
  split
  · exact code
  · simp [code]

theorem sparesComments_closing (word : ClosingWord) : SparesComments (state.closing word) := by
  cases opened : state.current with
  | none => simp [SparesComments, closing, opened, code]
  | some scopes =>
    cases word with
    | var | get | set =>
      simp only [closing, opened]
      split <;> simp [SparesComments, setScopes, code]
    | method | property =>
      simp only [closing, opened]
      split
      · simp [SparesComments, code]
      · split <;> simp [SparesComments, report, setScopes, code]
    | pou kind =>
      simp only [closing, opened]
      split
      · exact ⟨noComment_closePou code, by simp⟩
      · simp [SparesComments, code]

theorem sparesComments_openMember (member : Member) {problems : List Diagnostic}
    (problemsSpare : noComment problems = true) :
    SparesComments (state.openMember member problems) := by
  unfold openMember
  split
  · split <;> simp [SparesComments, report, setScopes, code, problemsSpare]
  · simp [SparesComments, code]

theorem sparesComments_boundary (pos : Position) (boundary : Boundary) :
    SparesComments (state.boundary pos boundary) := by
  cases boundary with
  | closing word => exact sparesComments_closing code word
  | pou header =>
    simp only [State.boundary, openPou]
    split <;> simp [SparesComments, setScopes, code]
  | method header =>
    refine sparesComments_openMember code _ ?_
    refine List.all_eq_true.mpr fun diagnostic member => ?_
    obtain ⟨text, rfl⟩ := MethodHeader.mem_invalidParameters member
    rfl
  | property header => exact sparesComments_openMember code _ rfl
  | varSection header =>
    simp only [State.boundary, openSection]
    split
    · simp [SparesComments, code]
    · rename_i scopes opened
      cases scopes.varSection <;>
        simp [SparesComments, report, setScopes, OpenSection.unclosed, code]

theorem sparesComments_statement (scopes : Scopes) (text : List Char) (pos : Position)
    (line : SourceLine) : SparesComments (state.statement scopes text pos line) := by
  obtain ⟨reported, failed⟩ :=
    scopes.builder.feed_isOfStatement scopes.pou.body.statements text pos
  have spares : noComment (scopes.builder.feed scopes.pou.body.statements text pos).reported =
      true := by
    simp only [noComment, List.all_eq_true, bne_iff_ne]
    exact fun diagnostic member =>
      Problem.ne_comment_of_isOfStatement (reported diagnostic member)
  simp only [statement]
  split
  · rename_i problem result
    have other := Problem.ne_comment_of_isOfStatement (failed problem result)
    simp [SparesComments, report, setScopes, code, spares, other]
  · simp [SparesComments, report, setScopes, code, spares]
  · simp [SparesComments, report, setScopes, code, spares]

theorem sparesComments_content (text : List Char) (pos : Position) (line : SourceLine)
    (comment : Option String) : SparesComments (state.content text pos line comment) := by
  unfold content
  split
  · simp [SparesComments, code]
  · split
    · simp only [declare]
      split
      · simp [SparesComments, code]
      · split <;> simp [SparesComments, setScopes, code]
    · simp [SparesComments, setScopes, code]
    · exact sparesComments_statement code ..

theorem noComment_step (step : Step) :
    noComment (state.step step).document.diagnostics = true := by
  by_cases blank : step.text = []
  · rw [state.step_of_blank blank]
    exact code
  · cases read : step.boundary? with
    | some boundary =>
      rw [state.step_of_boundary read]
      exact (sparesComments_boundary (noComment_dropPending code) step.pos boundary).settle _
    | none =>
      rw [state.step_of_content blank read]
      exact (sparesComments_content code ..).settle _

theorem noComment_run (steps : List Step) :
    noComment (state.run steps).document.diagnostics = true := by
  induction steps generalizing state with
  | nil => exact code
  | cons step steps ih => exact ih (noComment_step code step)

theorem noComment_finish : noComment state.finish.diagnostics = true := by
  unfold finish
  split
  · exact code
  · simp [noComment_closePou code]

end Operations

end State

/-- Comments cannot change what is read but for the comments of variables, the copies of lines, the
columns, and the report of a comment that is not closed. -/
theorem parseLines_codeLines (raws : List (List Char)) :
    (parseLines raws).viewed .byLine =
        ((parseLines (codeLines raws)).viewed .byLine).report (unterminated 0 none raws) ∧
      (parseLines (codeLines raws)).viewed .uncommented = parseLines (codeLines raws) ∧
      (∀ diagnostic ∈ (parseLines (codeLines raws)).diagnostics,
        diagnostic.problem ≠ .unterminatedComment) ∧
      stripLines 0 none (codeLines raws) =
        ((codeLines raws).map fun code => ⟨code, []⟩, none) := by
  have uncommented := uncommented_stripLines 0 none raws
  have again := stripLines_of_uncommented uncommented 0
  have closed : unterminated 0 none (codeLines raws) = [] := by
    rw [unterminated, codeLines, again]
    rfl
  have reading : parseLines (codeLines raws) =
      (State.run {} (stepsFrom 0 none (codeLines raws))).finish := by
    rw [parseLines_eq_run, closed]
    simp [Document.report]
  refine ⟨?_, ?_, ?_, again⟩
  · have start : State.viewed .byLine {} = State.viewed .byLine {} := rfl
    have same := State.run_alike start (alike_stepsFrom_code 0 none raws)
    have placed : (unterminated 0 none raws).map (Diagnostic.viewed .byLine) =
        unterminated 0 none raws := by
      unfold unterminated
      cases (stripLines 0 none raws).2 <;> rfl
    rw [parseLines_eq_run, reading, ← Document.report_viewed, placed, ← State.finish_viewed, same,
      State.finish_viewed]
    rfl
  · have same : (State.run {} (stepsFrom 0 none (codeLines raws))).viewed .uncommented =
        (State.run {} (stepsFrom 0 none (codeLines raws))).viewed .full := by
      have start : State.viewed .uncommented {} = State.viewed .full {} := rfl
      -- Without comments the two views cannot be told apart.
      refine State.run_alike start (List.forall₂_same.mpr ?_)
      intro step member
      have bare : step.comment = none :=
        Step.comment_eq_none (comments_of_mem_stepsFrom uncommented 0 step member)
      exact ⟨rfl, rfl, rfl, rfl, by rw [bare]; rfl, rfl⟩
    rw [reading, ← State.finish_viewed, same, State.finish_viewed, Document.viewed_full]
  · rw [reading]
    have code : noComment (State.run {} (stepsFrom 0 none (codeLines raws))).finish.diagnostics =
        true := State.noComment_finish (State.noComment_run rfl _)
    simpa [noComment] using code

end StructuredText
