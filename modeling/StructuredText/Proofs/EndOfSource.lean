import StructuredText.Proofs.Concatenation
import StructuredText.Proofs.Consistency
import StructuredText.Proofs.RoundTrip

set_option autoImplicit false

namespace StructuredText

def Member.closingWord : Member → ClosingWord
  | method _ => .method
  | property _ => .property

def OpenPou.closingWords (pou : OpenPou) : List ClosingWord :=
  (pou.member?.map Member.closingWord).toList ++ [.pou pou.kind]

def OpenPou.closingLines (pou : OpenPou) : String :=
  unlines (pou.closingWords.map ClosingWord.keyword)

def Member.unclosed (member : Member) : Diagnostic :=
  (Problem.unclosed member.construct member.name).at member.pos

def OpenPou.unclosed (pou : OpenPou) : Diagnostic :=
  (Problem.unclosed pou.kind.construct pou.name).at pou.pos

theorem fragments_of_closing {word : List Char} (nonempty : word ≠ [])
    (isName : ∀ c ∈ word, isNameChar c = true) (cut : Cut.ofWord? word = some .aroundClosing) :
    (fragments word).map Fragment.text = [word] := by
  have alone : lexemes word = [.word word] := by
    have read := lexemes_word_append nonempty isName (t := []) (by simp)
    simpa [lexemes] using read
  have nothing : takeAttached .aroundClosing [] = ([], []) := rfl
  have visible : isFragment word = true := by
    have notSemicolon : word ≠ [';'] := by
      rintro rfl
      exact absurd (isName ';' List.mem_cons_self) (by decide)
    simp [isFragment, nonempty, notSemicolon]
  rw [map_text_fragments, pieceTexts, alone, pieces_around cut (by simp) (by simp), nothing]
  simp [pieces, Lexeme.text, trim_of_name isName, visible]

namespace ClosingWord

theorem keyword_cut (word : ClosingWord) :
    word.keyword.toList ≠ [] ∧ word.keyword.toList.all isNameChar = true ∧
      Cut.ofWord? word.keyword.toList = some .aroundClosing := by
  rcases word with kind | _ | _ | _ | _ | _
  · cases kind <;> decide
  all_goals decide

theorem holds_keyword (word : ClosingWord) : Holds word.keyword.toList word.keyword.toList := by
  obtain ⟨nonempty, isName, cut⟩ := word.keyword_cut
  have names : ∀ c ∈ word.keyword.toList, isNameChar c = true := List.all_eq_true.mp isName
  have trimmed := trim_of_name names
  refine holds_constant ?_ (by rwa [trimmed]) (fragments_of_closing nonempty names cut)
  rcases word with kind | _ | _ | _ | _ | _
  · cases kind <;> decide
  all_goals decide

theorem boundary_keyword (word : ClosingWord) :
    Boundary.read? word.keyword.toList = some (.closing word) := by
  rcases word with kind | _ | _ | _ | _ | _
  · cases kind <;> decide
  all_goals decide

theorem keyword_inLine (word : ClosingWord) :
    '\n' ∉ word.keyword.toList ∧ word.keyword.toList.getLast? ≠ some '\r' := by
  rcases word with kind | _ | _ | _ | _ | _
  · cases kind <;> decide
  all_goals decide

end ClosingWord

theorem OpenPou.lines_closingLines (pou : OpenPou) :
    lines pou.closingLines.toList = pou.closingWords.map fun word => word.keyword.toList := by
  have inLine : ∀ line ∈ pou.closingWords.map ClosingWord.keyword,
      '\n' ∉ line.toList ∧ line.toList.getLast? ≠ some '\r' := by
    intro line member
    obtain ⟨word, -, rfl⟩ := List.mem_map.mp member
    exact word.keyword_inLine
  have written := lines_unlines inLine []
  simpa [lines, closingLines, Function.comp_def] using written

theorem Progress.line_of_closing {progress : Progress} (outside : progress.comment = none)
    (word : ClosingWord) :
    ∃ step : Step, step.boundary? = some (.closing word) ∧
      progress.line word.keyword.toList = ⟨progress.count + 1, none, progress.state.step step⟩ := by
  obtain ⟨step, text, -, result⟩ := Progress.line_of_holds word.holds_keyword outside
  refine ⟨step, ?_, result⟩
  rw [Step.boundary?, text, word.boundary_keyword]

-- A pending statement is reported first or last, since there is no section beside it.
theorem Scopes.unfinished_dropPending {scopes : Scopes}
    (idle : scopes.varSection ≠ none → scopes.builder.pending = none) :
    scopes.builder.dropPending.2 ++
        { scopes with builder := scopes.builder.dropPending.1 : Scopes }.unfinished =
      scopes.unfinished := by
  obtain ⟨pou, varSection, ⟨frames, blocks, pending⟩, copiedLine⟩ := scopes
  cases varSection with
  | none => simp [unfinished, Builder.dropPending, Builder.close]
  | some opened =>
    obtain rfl : pending = none := idle (by simp)
    simp [unfinished, Builder.dropPending, Builder.close]

@[simp] theorem Document.report_nil (document : Document) : document.report [] = document := by
  simp [report]

theorem Document.report_report (document : Document) (first second : List Diagnostic) :
    (document.report first).report second = document.report (first ++ second) := by
  simp [report]

@[simp] theorem OpenPou.closeMember_closeMember (pou : OpenPou) :
    pou.closeMember.closeMember = pou.closeMember := by
  rcases pou with ⟨block, _ | member⟩ | program | function <;> rfl

@[simp] theorem OpenPou.kind_closeMember (pou : OpenPou) : pou.closeMember.kind = pou.kind := by
  rcases pou with ⟨block, _ | member⟩ | program | function <;> rfl

theorem OpenPou.member?_closeMember (pou : OpenPou) : pou.closeMember.member? = none := by
  rcases pou with ⟨block, _ | member⟩ | program | function <;> rfl

theorem Document.addPou_report (document : Document) (pou : OpenPou)
    (diagnostics : List Diagnostic) :
    (document.report diagnostics).addPou pou = (document.addPou pou).report diagnostics := by
  unfold addPou
  cases pou.closeMember <;> rfl

@[simp] theorem Document.addPou_closeMember (document : Document) (pou : OpenPou) :
    document.addPou pou.closeMember = document.addPou pou := by
  simp only [addPou, OpenPou.closeMember_closeMember]

namespace State

variable (document : Document) {scopes : Scopes}
  (idle : scopes.varSection ≠ none → scopes.builder.pending = none)

include idle

theorem closing_member {member : Member} (isOpen : scopes.pou.member? = some member)
    (start : Position) :
    settle ((State.mk document (some scopes)).dropPending.closing member.closingWord) start =
      ⟨document.report scopes.unfinished, some { pou := scopes.pou.closeMember }⟩ := by
  rw [dropPending_of_open rfl, ← Scopes.unfinished_dropPending idle, ← Document.report_report]
  cases member <;>
    simp [closing, settle, Member.closingWord, Member.construct, report, setScopes, isOpen]

theorem closing_pou (noMember : scopes.pou.member? = none) (start : Position) :
    settle ((State.mk document (some scopes)).dropPending.closing (.pou scopes.pou.kind)) start =
      ⟨(document.addPou scopes.pou).report scopes.unfinished, none⟩ := by
  rw [dropPending_of_open rfl, ← Scopes.unfinished_dropPending idle, ← Document.report_report]
  simp [closing, closePou, settle, report, setScopes, Scopes.unclosed, noMember,
    Document.addPou_report]

end State

def readSource (source : String) : Progress :=
  (lines source.toList).foldl Progress.line {}

namespace Progress

variable {progress : Progress} {document : Document} {scopes : Scopes}

theorem line_of_closing_pou (outside : progress.comment = none)
    (state : progress.state = ⟨document, some scopes⟩)
    (idle : scopes.varSection ≠ none → scopes.builder.pending = none)
    (noMember : scopes.pou.member? = none) :
    progress.line (ClosingWord.pou scopes.pou.kind).keyword.toList =
      ⟨progress.count + 1, none,
        ⟨(document.addPou scopes.pou).report scopes.unfinished, none⟩⟩ := by
  obtain ⟨step, read, result⟩ := line_of_closing outside (.pou scopes.pou.kind)
  rw [result, State.step_of_boundary _ read, state]
  exact congrArg _ (State.closing_pou document idle noMember step.start)

theorem line_of_closing_member (outside : progress.comment = none)
    (state : progress.state = ⟨document, some scopes⟩)
    (idle : scopes.varSection ≠ none → scopes.builder.pending = none)
    {member : Member} (isOpen : scopes.pou.member? = some member) :
    progress.line member.closingWord.keyword.toList =
      ⟨progress.count + 1, none,
        ⟨document.report scopes.unfinished, some { pou := scopes.pou.closeMember }⟩⟩ := by
  obtain ⟨step, read, result⟩ := line_of_closing outside member.closingWord
  rw [result, State.step_of_boundary _ read, state]
  exact congrArg _ (State.closing_member document idle isOpen step.start)

theorem foldl_closing (outside : progress.comment = none)
    (state : progress.state = ⟨document, some scopes⟩)
    (idle : scopes.varSection ≠ none → scopes.builder.pending = none) :
    ∃ count, (scopes.pou.closingWords.map fun word => word.keyword.toList).foldl Progress.line
        progress =
      ⟨count, none, ⟨(document.addPou scopes.pou).report scopes.unfinished, none⟩⟩ := by
  cases isOpen : scopes.pou.member? with
  | none =>
    refine ⟨progress.count + 1, ?_⟩
    simp only [OpenPou.closingWords, isOpen]
    exact line_of_closing_pou outside state idle isOpen
  | some member =>
    let next : Progress := ⟨progress.count + 1, none,
      ⟨document.report scopes.unfinished, some { pou := scopes.pou.closeMember }⟩⟩
    have first : progress.line member.closingWord.keyword.toList = next :=
      line_of_closing_member outside state idle isOpen
    have second := @line_of_closing_pou next _ _ rfl rfl (by simp)
      scopes.pou.member?_closeMember
    refine ⟨progress.count + 2, ?_⟩
    simp only [OpenPou.closingWords, isOpen, Option.map_some, Option.toList_some, List.map_append,
      List.map_cons, List.map_nil, List.foldl_append, List.foldl_cons, List.foldl_nil, first]
    rw [OpenPou.kind_closeMember] at second
    rw [second]
    simp [next, Document.addPou_report, Scopes.unfinished, Builder.close]

end Progress

/-- Where a source ends inside a POU, it is read as if the missing closing words followed, but for
one report for each of them at the header of what it closes. -/
theorem parse_append_closingLines {source : String}
    (ends : source = "" ∨ source.toList.getLast? = some '\n')
    (outside : (readSource source).comment = none) {scopes : Scopes}
    (isOpen : (readSource source).state.current = some scopes) :
    parse source =
        (parse (source ++ scopes.pou.closingLines)).report
          ((scopes.pou.member?.map Member.unclosed).toList ++ [scopes.pou.unclosed]) ∧
      (∃ before after step header, LastPou (steps source) scopes.pou before after step header ∧
        scopes.pou.pos = step.pos) ∧
      ∀ member, scopes.pou.member? = some member →
        ∃ before after step block placed,
          LastMember (steps source) member before after step block placed ∧
            member.pos = step.pos := by
  have reached : (readSource source).state = stateAfter (steps source) :=
    Progress.state_foldl {} (lines source.toList)
  have current : (stateAfter (steps source)).current = some scopes := reached ▸ isOpen
  refine ⟨?_, lastPou_at_header current, fun member inside => lastMember_at_header current inside⟩
  obtain ⟨sound, -⟩ := sound_opened (steps source) scopes current
  let document := (readSource source).state.document
  have state : (readSource source).state = ⟨document, some scopes⟩ := by
    rw [← isOpen]
  obtain ⟨count, closed⟩ := Progress.foldl_closing outside state sound.idle
  have split : lines (source ++ scopes.pou.closingLines).toList =
      lines source.toList ++ scopes.pou.closingWords.map fun word => word.keyword.toList := by
    have ended : source.toList = [] ∨ source.toList.getLast? = some '\n' := by simpa using ends
    rw [String.toList_append, lines_append_of_newline ended, scopes.pou.lines_closingLines]
  -- Both sources end with the same POUs. They differ in what has been reported by then.
  have whole : parse (source ++ scopes.pou.closingLines) =
      (document.addPou scopes.pou).report scopes.unfinished := by
    rw [parse, split, List.foldl_append, ← readSource, closed]
    simp [Progress.finish, State.finish]
  have here : parse source =
      ((document.addPou scopes.pou).report scopes.unclosed).report [scopes.pou.unclosed] := by
    have same : parse source = (readSource source).finish := rfl
    rw [same, Progress.finish, outside, state]
    simp [State.finish, State.closePou, OpenPou.unclosed]
  rw [whole, here, Document.report_report, Document.report_report, Scopes.unclosed,
    List.append_assoc]
  rfl

def truncatedSource : String :=
  "FUNCTION_BLOCK F\n  METHOD M\n  IF a THEN\n    x := 1 +\n"

theorem parse_truncatedSource :
    ∃ scopes, (readSource truncatedSource).comment = none ∧
      (readSource truncatedSource).state.current = some scopes ∧
      scopes.pou.closingLines = "END_METHOD\nEND_FUNCTION_BLOCK\n" ∧
      parse truncatedSource =
        (parse (truncatedSource ++ scopes.pou.closingLines)).report
          ((scopes.pou.member?.map Member.unclosed).toList ++ [scopes.pou.unclosed]) := by
  have ends : truncatedSource.toList.getLast? = some '\n' := by decide +kernel
  have reached : (readSource truncatedSource).comment = none ∧
      ((readSource truncatedSource).state.current.map fun scopes => scopes.pou.closingLines) =
        some "END_METHOD\nEND_FUNCTION_BLOCK\n" := by
    decide +kernel
  obtain ⟨outside, written⟩ := reached
  obtain ⟨scopes, current, closing⟩ := Option.map_eq_some_iff.mp written
  exact ⟨scopes, outside, current, closing,
    (parse_append_closingLines (.inr ends) outside current).1⟩

end StructuredText
