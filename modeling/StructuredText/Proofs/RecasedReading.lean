import StructuredText.Proofs.RecasedBuilder
import StructuredText.Proofs.RecasedFragments

set_option autoImplicit false

namespace StructuredText

theorem Member.construct_capitalized (member : Member) :
    member.capitalized.construct = member.construct := by
  cases member <;> rfl

theorem Member.name_capitalized (member : Member) :
    member.capitalized.name = inCapitals member.name := by
  cases member <;> rfl

theorem Member.pos_capitalized (member : Member) : member.capitalized.pos = member.pos := by
  cases member <;> rfl

structure Scopes.Respells (one other : Scopes) : Prop where
  pou : one.pou.capitalized = other.pou.capitalized
  varSection : one.varSection = other.varSection
  builder : one.builder.Respells other.builder
  copiedLine : one.copiedLine = other.copiedLine

structure State.Respells (one other : State) : Prop where
  document : one.document.capitalized = other.document.capitalized
  current : Option.Rel Scopes.Respells one.current other.current

structure SameOutcome (one other : State × Option Problem) : Prop where
  state : one.1.Respells other.1
  problem : one.2.map Problem.capitalized = other.2.map Problem.capitalized

namespace Scopes.Respells

variable {one other : Scopes} (respells : one.Respells other)

include respells

theorem kind : one.pou.kind = other.pou.kind := by
  rw [← one.pou.kind_capitalized, respells.pou, other.pou.kind_capitalized]

theorem name : inCapitals one.pou.name = inCapitals other.pou.name := by
  rw [← one.pou.name_capitalized, respells.pou, other.pou.name_capitalized]

theorem pos : one.pou.pos = other.pou.pos := by
  rw [← one.pou.pos_capitalized, respells.pou, other.pou.pos_capitalized]

theorem body : one.pou.body.capitalized = other.pou.body.capitalized := by
  rw [← OpenPou.body_capitalized, respells.pou, OpenPou.body_capitalized]

theorem member : Option.Rel (fun one other => one.capitalized = other.capitalized)
    one.pou.member? other.pou.member? := by
  have same : one.pou.member?.map Member.capitalized =
      other.pou.member?.map Member.capitalized := by
    rw [← one.pou.member?_capitalized, respells.pou, other.pou.member?_capitalized]
  generalize one.pou.member? = member at same ⊢
  generalize other.pou.member? = otherMember at same ⊢
  cases member <;> cases otherMember <;> simp_all

theorem unfinished :
    one.unfinished.map Diagnostic.capitalized = other.unfinished.map Diagnostic.capitalized := by
  rw [Scopes.unfinished, Scopes.unfinished, List.map_append, List.map_append,
    respells.builder.close, respells.varSection]

theorem unclosed :
    one.unclosed.map Diagnostic.capitalized = other.unclosed.map Diagnostic.capitalized := by
  have inMember (scopes : Scopes) :
      ((scopes.pou.member?.map fun member =>
          (Problem.unclosed member.construct member.name).at member.pos).toList.map
            Diagnostic.capitalized) =
        (scopes.pou.capitalized.member?.map fun member =>
          (Problem.unclosed member.construct member.name).at member.pos).toList := by
    rw [OpenPou.member?_capitalized]
    cases scopes.pou.member? with
    | none => rfl
    | some member =>
      simp [Problem.capitalized, member.construct_capitalized, member.name_capitalized,
        member.pos_capitalized]
  rw [Scopes.unclosed, Scopes.unclosed, List.map_append, List.map_append, respells.unfinished,
    inMember, inMember, respells.pou]

end Scopes.Respells

namespace State.Respells

variable {one other : State} (respells : one.Respells other)

include respells

theorem report {diagnostics others : List Diagnostic}
    (same : diagnostics.map Diagnostic.capitalized = others.map Diagnostic.capitalized) :
    (one.report diagnostics).Respells (other.report others) where
  document := by
    simp only [State.report, Document.report_capitalized, respells.document, same]
  current := respells.current

theorem setScopes {scopes otherScopes : Scopes} (same : scopes.Respells otherScopes) :
    (one.setScopes scopes).Respells (other.setScopes otherScopes) :=
  ⟨respells.document, .some same⟩

theorem refused {problem otherProblem : Problem}
    (same : problem.capitalized = otherProblem.capitalized) :
    SameOutcome (one, some problem) (other, some otherProblem) :=
  ⟨respells, congrArg some same⟩

theorem accepted : SameOutcome (one, none) (other, none) :=
  ⟨respells, rfl⟩

theorem dropPending : one.dropPending.Respells other.dropPending := by
  obtain ⟨document, current⟩ := one
  obtain ⟨otherDocument, otherCurrent⟩ := other
  obtain ⟨documents, currents⟩ := respells
  cases currents with
  | none => exact ⟨documents, .none⟩
  | @some scopes otherScopes same =>
    obtain ⟨builders, reports⟩ := same.builder.dropPending
    have next : Scopes.Respells { scopes with builder := scopes.builder.dropPending.1 }
        { otherScopes with builder := otherScopes.builder.dropPending.1 } :=
      ⟨same.pou, same.varSection, builders, same.copiedLine⟩
    have idle : State.Respells
        ⟨document, some { scopes with builder := scopes.builder.dropPending.1 }⟩
        ⟨otherDocument, some { otherScopes with builder := otherScopes.builder.dropPending.1 }⟩ :=
      ⟨documents, .some next⟩
    exact idle.report reports

theorem closePou : one.closePou.Respells other.closePou := by
  obtain ⟨document, current⟩ := one
  obtain ⟨otherDocument, otherCurrent⟩ := other
  obtain ⟨documents, currents⟩ := respells
  cases currents with
  | none => exact ⟨documents, .none⟩
  | @some scopes otherScopes same =>
    refine ⟨?_, .none⟩
    simp only [State.closePou, Document.report_capitalized, Document.addPou_capitalized, documents]
    rw [same.pou, same.unclosed]

theorem closeMember {scopes otherScopes : Scopes} (same : scopes.Respells otherScopes)
    (word : ClosingWord) (expected : Construct) :
    SameOutcome
      (match scopes.pou.member? with
        | none => (one, some (.unexpectedKeyword word.keyword))
        | some member =>
          if member.construct = expected then
            ((one.setScopes { pou := scopes.pou.closeMember }).report scopes.unfinished, none)
          else (one, some (.mismatchedEnd word.keyword member.construct member.name)))
      (match otherScopes.pou.member? with
        | none => (other, some (.unexpectedKeyword word.keyword))
        | some member =>
          if member.construct = expected then
            ((other.setScopes { pou := otherScopes.pou.closeMember }).report
              otherScopes.unfinished, none)
          else (other, some (.mismatchedEnd word.keyword member.construct member.name))) := by
  have closed : Scopes.Respells { pou := scopes.pou.closeMember }
      { pou := otherScopes.pou.closeMember } := by
    refine ⟨?_, rfl, .refl _, rfl⟩
    rw [OpenPou.closeMember_capitalized, same.pou, OpenPou.closeMember_capitalized]
  have members := same.member
  generalize scopes.pou.member? = member at members ⊢
  generalize otherScopes.pou.member? = otherMember at members ⊢
  cases members with
  | none => exact respells.refused rfl
  | @some member otherMember sameMember =>
    have construct : member.construct = otherMember.construct := by
      rw [← member.construct_capitalized, sameMember, otherMember.construct_capitalized]
    have name : inCapitals member.name = inCapitals otherMember.name := by
      rw [← member.name_capitalized, sameMember, otherMember.name_capitalized]
    simp only [construct]
    split
    · exact ((respells.setScopes closed).report same.unfinished).accepted
    · exact respells.refused (by simp [Problem.capitalized, name])

theorem closing (word : ClosingWord) : SameOutcome (one.closing word) (other.closing word) := by
  have currents := respells.current
  simp only [State.closing]
  generalize one.current = current at currents ⊢
  generalize other.current = otherCurrent at currents ⊢
  cases currents with
  | none => exact respells.refused rfl
  | @some scopes otherScopes same =>
    cases word with
    | var =>
      have ended : Scopes.Respells { scopes with varSection := none }
          { otherScopes with varSection := none } :=
        ⟨same.pou, rfl, same.builder, same.copiedLine⟩
      simp only [same.varSection]
      split
      · exact (respells.setScopes ended).accepted
      · exact respells.refused rfl
    | get | set =>
      have inProperty : scopes.pou.member?.any (·.construct = .property) =
          otherScopes.pou.member?.any (·.construct = .property) := by
        have members := same.member
        generalize scopes.pou.member? = member at members ⊢
        generalize otherScopes.pou.member? = otherMember at members ⊢
        cases members with
        | none => rfl
        | @some member otherMember sameMember =>
          have construct : member.construct = otherMember.construct := by
            rw [← member.construct_capitalized, sameMember, otherMember.construct_capitalized]
          simp [construct]
      simp only [inProperty]
      split
      · exact respells.accepted
      · exact respells.refused rfl
    | pou kind =>
      simp only [same.kind]
      split
      · exact respells.closePou.accepted
      · exact respells.refused (by simp [Problem.capitalized, same.name])
    | method => exact respells.closeMember same .method .method
    | property => exact respells.closeMember same .property .property

theorem openPou (pos : Position) {header otherHeader : PouHeader}
    (same : header.capitalized = otherHeader.capitalized) :
    SameOutcome (one.openPou header pos) (other.openPou otherHeader pos) := by
  have currents := respells.current
  simp only [State.openPou]
  generalize one.current = current at currents ⊢
  generalize other.current = otherCurrent at currents ⊢
  cases currents with
  | none =>
    have opened : Scopes.Respells { pou := .ofHeader header pos }
        { pou := .ofHeader otherHeader pos } := by
      refine ⟨?_, rfl, .refl _, rfl⟩
      rw [OpenPou.ofHeader_capitalized, same, OpenPou.ofHeader_capitalized]
    exact (respells.setScopes opened).accepted
  | some _ => exact respells.refused rfl

theorem openMember {member otherMember : Member} {problems others : List Diagnostic}
    (same : member.capitalized = otherMember.capitalized)
    (reports : problems.map Diagnostic.capitalized = others.map Diagnostic.capitalized) :
    SameOutcome (one.openMember member problems) (other.openMember otherMember others) := by
  have construct : member.construct = otherMember.construct := by
    rw [← member.construct_capitalized, same, otherMember.construct_capitalized]
  have currents := respells.current
  simp only [State.openMember, construct]
  generalize one.current = current at currents ⊢
  generalize other.current = otherCurrent at currents ⊢
  cases currents with
  | none => exact respells.refused rfl
  | @some scopes otherScopes sameScopes =>
    have unfinished : (scopes.unfinished ++ problems).map Diagnostic.capitalized =
        (otherScopes.unfinished ++ others).map Diagnostic.capitalized := by
      rw [List.map_append, List.map_append, sameScopes.unfinished, reports]
    have pous := sameScopes.pou
    simp only
    generalize scopes.pou = pou at pous ⊢
    generalize otherScopes.pou = otherPou at pous ⊢
    cases pou with
    | functionBlock block inner =>
      cases otherPou with
      | functionBlock otherBlock otherInner =>
        simp only [OpenPou.capitalized, OpenPou.functionBlock.injEq] at pous
        cases inner with
        | none =>
          obtain rfl := Option.map_eq_none_iff.mp pous.2.symm
          have opened : Scopes.Respells { pou := .functionBlock block (some member) }
              { pou := .functionBlock otherBlock (some otherMember) } :=
            ⟨by simp [OpenPou.capitalized, pous.1, same], rfl, .refl _, rfl⟩
          exact ((respells.report unfinished).setScopes opened).accepted
        | some inner =>
          obtain ⟨otherInner, rfl, -⟩ := Option.map_eq_some_iff.mp pous.2.symm
          exact respells.refused rfl
      | program _ | function _ => cases pous
    | program _ | function _ =>
      cases otherPou with
      | functionBlock _ _ => cases pous
      | program _ | function _ => exact respells.refused rfl

theorem openMethod (pos : Position) {header otherHeader : MethodHeader}
    (same : header.Respells otherHeader) :
    SameOutcome (one.openMethod header pos) (other.openMethod otherHeader pos) := by
  have texts : Recased (header.parameters.getD []) (otherHeader.parameters.getD []) := by
    have parameters := same.parameters
    generalize header.parameters = text at parameters ⊢
    generalize otherHeader.parameters = otherText at parameters ⊢
    cases parameters with
    | none => exact .refl []
    | some texts => exact texts
  have entries := texts.parameterList
  simp only [State.openMethod, MethodHeader.inputs, MethodHeader.invalidParameters]
  generalize Parameter.readList (header.parameters.getD []) = left at entries ⊢
  generalize Parameter.readList (otherHeader.parameters.getD []) = right at entries ⊢
  refine respells.openMember ?_ ?_
  · simp only [Member.capitalized, Method.capitalized, Member.method.injEq, Method.mk.injEq,
      same.name, same.returnType, List.map_filterMap, true_and, and_true]
    induction entries with
    | nil => rfl
    | cons first _ ih =>
      cases first with
      | ok read =>
        have parameter := read
        simp only [Parameter.capitalized, Parameter.mk.injEq] at parameter
        simp only [List.filterMap_cons, Option.map_some, Variable.capitalized, parameter, ih]
      | error text => simpa only [List.filterMap_cons, Option.map_none] using ih
  · simp only [List.map_filterMap]
    induction entries with
    | nil => rfl
    | cons first _ ih =>
      cases first with
      | ok read => simpa only [List.filterMap_cons, Option.map_none] using ih
      | error text =>
        simp only [List.filterMap_cons, Option.map_some, Diagnostic.capitalized_at,
          Problem.capitalized, text, ih]

theorem openProperty (pos : Position) {header otherHeader : PropertyHeader}
    (same : header.capitalized = otherHeader.capitalized) :
    SameOutcome (one.openProperty header pos) (other.openProperty otherHeader pos) := by
  simp only [PropertyHeader.capitalized, PropertyHeader.mk.injEq] at same
  exact respells.openMember (by simp [Member.capitalized, Property.capitalized, same]) rfl

theorem openSection (pos : Position) (header : SectionHeader) :
    SameOutcome (one.openSection header pos) (other.openSection header pos) := by
  have currents := respells.current
  simp only [State.openSection]
  generalize one.current = current at currents ⊢
  generalize other.current = otherCurrent at currents ⊢
  cases currents with
  | none => exact respells.refused rfl
  | @some scopes otherScopes same =>
    have opened : Scopes.Respells { scopes with varSection := some ⟨header, pos⟩ }
        { otherScopes with varSection := some ⟨header, pos⟩ } :=
      ⟨same.pou, rfl, same.builder, same.copiedLine⟩
    simp only [same.varSection]
    exact ((respells.report rfl).setScopes opened).accepted

theorem boundary (pos : Position) {word otherWord : Boundary} (same : word.Respells otherWord) :
    SameOutcome (one.boundary pos word) (other.boundary pos otherWord) := by
  cases same with
  | closing word => exact respells.closing word
  | pou same => exact respells.openPou pos same
  | method same => exact respells.openMethod pos same
  | property same => exact respells.openProperty pos same
  | varSection header => exact respells.openSection pos header

theorem declare {scopes otherScopes : Scopes} (sameScopes : scopes.Respells otherScopes)
    (header : SectionHeader) {text otherText : List Char} (alike : Recased text otherText)
    (line : Nat) {comment otherComment : Option String}
    (comments : comment.map inCapitals = otherComment.map inCapitals) :
    SameOutcome (one.declare scopes header text line comment)
      (other.declare otherScopes header otherText line otherComment) := by
  simp only [State.declare]
  cases header.scope? with
  | none => exact respells.accepted
  | some scope =>
    have declarations := alike.declaration
    simp only
    generalize Declaration.read? text = declaration at declarations ⊢
    generalize Declaration.read? otherText = otherDeclaration at declarations ⊢
    cases declarations with
    | none => exact respells.refused (by simp [Problem.capitalized, alike.letters])
    | @some declaration otherDeclaration same =>
      simp only [Declaration.capitalized, Declaration.mk.injEq] at same
      obtain ⟨names, types, values⟩ := same
      let variableOf (declaration : Declaration) (comment : Option String) (name : String) :
          Variable :=
        { name, type := declaration.type, scope, initialValue := declaration.initialValue, comment,
          line }
      have inLetters (declaration : Declaration) (comment : Option String) :
          (declaration.names.map (variableOf declaration comment)).map Variable.capitalized =
            (declaration.names.map inCapitals).map
              (variableOf declaration.capitalized (comment.map inCapitals)) := by
        rw [List.map_map, List.map_map]
        rfl
      have declared : Scopes.Respells
          { scopes with
            pou := declaration.names.foldl
              (fun pou name => pou.addVariable (variableOf declaration comment name)) scopes.pou }
          { otherScopes with
            pou := otherDeclaration.names.foldl
              (fun pou name => pou.addVariable (variableOf otherDeclaration otherComment name))
              otherScopes.pou } := by
        refine ⟨?_, sameScopes.varSection, sameScopes.builder, sameScopes.copiedLine⟩
        have folded := OpenPou.foldl_addVariable_capitalized scopes.pou
          (declaration.names.map (variableOf declaration comment))
        have otherFolded := OpenPou.foldl_addVariable_capitalized otherScopes.pou
          (otherDeclaration.names.map (variableOf otherDeclaration otherComment))
        rw [List.foldl_map] at folded otherFolded
        rw [folded, otherFolded, inLetters, inLetters, names, sameScopes.pou, comments]
        simp only [variableOf, Declaration.capitalized, types, values]
      exact (respells.setScopes declared).accepted

omit respells in
theorem record {scopes otherScopes : Scopes} (same : scopes.Respells otherScopes)
    {text otherText : List Char} (alike : Recased text otherText) (number : Nat)
    {copied otherCopied : String} (copies : inCapitals copied = inCapitals otherCopied) :
    (State.record scopes text number copied).Respells
      (State.record otherScopes otherText number otherCopied) := by
  have bodies : ({ scopes.pou.body with
        unsupported := scopes.pou.body.unsupported ++ [⟨String.ofList text, number⟩] } :
          Body).capitalized =
      ({ otherScopes.pou.body with
        unsupported := otherScopes.pou.body.unsupported ++ [⟨String.ofList otherText, number⟩] } :
          Body).capitalized := by
    have before := same.body
    simp only [Body.capitalized, Body.mk.injEq] at before
    simp [Body.capitalized, Unsupported.capitalized, before, alike.letters]
  have pous := congrArg₂ OpenPou.setBody bodies same.pou
  rw [← OpenPou.setBody_capitalized, ← OpenPou.setBody_capitalized] at pous
  simp only [State.record]
  generalize scopes.pou.setBody _ = pou at pous ⊢
  generalize otherScopes.pou.setBody _ = otherPou at pous ⊢
  have recorded : Scopes.Respells { scopes with pou } { otherScopes with pou := otherPou } :=
    ⟨pous, same.varSection, same.builder, same.copiedLine⟩
  have members := recorded.member
  simp only at members
  generalize isMember : pou.member? = member at members ⊢
  generalize isOther : otherPou.member? = otherMember at members ⊢
  cases members with
  | none => exact recorded
  | @some member otherMember sameMember =>
    simp only
    by_cases isCopied : scopes.copiedLine = some number
    · rw [if_pos isCopied, if_pos (same.copiedLine ▸ isCopied)]
      exact recorded
    · rw [if_neg isCopied, if_neg (same.copiedLine ▸ isCopied)]
      refine ⟨?_, same.varSection, same.builder, rfl⟩
      rw [OpenPou.setMember_capitalized, OpenPou.setMember_capitalized,
        Member.addImplementation_capitalized, Member.addImplementation_capitalized, pous,
        sameMember, copies]

theorem accept {scopes otherScopes : Scopes} (same : scopes.Respells otherScopes)
    {outcome otherOutcome : Builder.Outcome} (fed : outcome.Respells otherOutcome) (number : Nat)
    {copied otherCopied : String} (copies : inCapitals copied = inCapitals otherCopied) :
    SameOutcome (one.accept scopes outcome number copied)
      (other.accept otherScopes otherOutcome number otherCopied) := by
  have bodies : ({ scopes.pou.body with statements := outcome.root } : Body).capitalized =
      ({ otherScopes.pou.body with statements := otherOutcome.root } : Body).capitalized := by
    have before := same.body
    simp only [Body.capitalized, Body.mk.injEq] at before
    simp [Body.capitalized, before, fed.root]
  have next : Scopes.Respells
      { scopes with
        pou := scopes.pou.setBody { scopes.pou.body with statements := outcome.root }
        builder := outcome.builder }
      { otherScopes with
        pou := otherScopes.pou.setBody { otherScopes.pou.body with statements := otherOutcome.root }
        builder := otherOutcome.builder } := by
    refine ⟨?_, same.varSection, fed.builder, same.copiedLine⟩
    rw [OpenPou.setBody_capitalized, OpenPou.setBody_capitalized, bodies, same.pou]
  have reported := respells.report fed.reported
  have results := fed.result
  simp only [State.accept]
  generalize outcome.result = result at results ⊢
  generalize otherOutcome.result = otherResult at results ⊢
  cases results with
  | problem sameProblem => exact (reported.setScopes next).refused sameProblem
  | statement => exact (reported.setScopes next).accepted
  | pending => exact (reported.setScopes next).accepted
  | unsupported texts => exact (reported.setScopes (record next texts number copies)).accepted

theorem take {text otherText : List Char} (alike : Recased text otherText) (pos : Position)
    (number : Nat) {copied otherCopied : String}
    (copies : inCapitals copied = inCapitals otherCopied) {comment otherComment : Option String}
    (comments : comment.map inCapitals = otherComment.map inCapitals) :
    SameOutcome (one.take text pos number copied comment)
      (other.take otherText pos number otherCopied otherComment) := by
  have currents := respells.current
  simp only [State.take]
  generalize one.current = current at currents ⊢
  generalize other.current = otherCurrent at currents ⊢
  cases currents with
  | none => exact respells.accepted
  | @some scopes otherScopes same =>
    have amended : ((Accessor.read? text).bind scopes.pou.withAccessor?).map OpenPou.capitalized =
        ((Accessor.read? otherText).bind otherScopes.pou.withAccessor?).map
          OpenPou.capitalized := by
      rw [alike.accessor]
      cases Accessor.read? otherText with
      | none => rfl
      | some accessor =>
        rw [Option.bind_some, Option.bind_some, ← OpenPou.withAccessor?_capitalized, same.pou,
          OpenPou.withAccessor?_capitalized]
    simp only [same.varSection]
    cases otherScopes.varSection with
    | some varSection => exact respells.declare same varSection.header alike number comments
    | none =>
      simp only
      generalize (Accessor.read? text).bind _ = pou at amended ⊢
      generalize (Accessor.read? otherText).bind _ = otherPou at amended ⊢
      cases pou with
      | some pou =>
        obtain ⟨otherPou, rfl, samePou⟩ := Option.map_eq_some_iff.mp amended.symm
        have next : Scopes.Respells ⟨pou, none, scopes.builder, scopes.copiedLine⟩
            ⟨otherPou, none, otherScopes.builder, otherScopes.copiedLine⟩ :=
          ⟨samePou.symm, rfl, same.builder, same.copiedLine⟩
        exact (respells.setScopes next).accepted
      | none =>
        obtain rfl := Option.map_eq_none_iff.mp amended.symm
        have roots := congrArg Body.statements same.body
        exact respells.accept same (same.builder.feed roots alike pos) number copies

end State.Respells

theorem SameOutcome.settle {one other : State × Option Problem} (same : SameOutcome one other)
    (start : Position) : (State.settle one start).Respells (State.settle other start) := by
  refine same.state.report ?_
  have problems := same.problem
  generalize one.2 = problem at problems ⊢
  generalize other.2 = otherProblem at problems ⊢
  cases problem <;> cases otherProblem <;> simp_all

namespace State.Respells

variable {one other : State} (respells : one.Respells other)

include respells

theorem step {left right : Step} (same : left.Respells right) :
    (one.step left).Respells (other.step right) := by
  have boundaries := same.text.boundary
  by_cases blank : left.text = []
  · rw [step_of_blank one blank, step_of_blank other (same.text.nil_iff.mp blank)]
    exact respells
  · have visible : right.text ≠ [] := same.text.nil_iff.not.mp blank
    cases read : left.boundary? with
    | some word =>
      rw [← Step.boundary?, read] at boundaries
      obtain ⟨otherWord, otherRead, words⟩ := exists_of_rel boundaries
      rw [step_of_boundary one read, step_of_boundary other otherRead, ← same.pos, ← same.start]
      exact (respells.dropPending.boundary left.pos words).settle left.start
    | none =>
      rw [← Step.boundary?, read] at boundaries
      rw [step_of_content one blank read,
        step_of_content other visible (eq_none_of_rel boundaries), content_eq_take, content_eq_take,
        ← same.pos, ← same.start, ← same.number]
      have copies : inCapitals (String.ofList (trim left.line.raw) ++ "\n") =
          inCapitals (String.ofList (trim right.line.raw) ++ "\n") := by
        simp [same.copy]
      exact (respells.take same.text left.pos left.line.number copies same.comment).settle
        left.start

end State.Respells

theorem State.run_respells {left right : List Step} (same : List.Forall₂ Step.Respells left right)
    {one other : State} (respells : one.Respells other) :
    (one.run left).Respells (other.run right) := by
  induction same generalizing one other with
  | nil => exact respells
  | cons first _ ih => exact ih (respells.step first)

theorem State.Respells.finish {one other : State} (respells : one.Respells other) :
    one.finish.capitalized = other.finish.capitalized := by
  have currents := respells.current
  have closed := respells.closePou.document
  simp only [State.finish]
  generalize one.current = current at currents ⊢
  generalize other.current = otherCurrent at currents ⊢
  cases currents with
  | none => exact respells.document
  | @some scopes otherScopes same =>
    simp only [Document.report_capitalized, closed, same.kind, same.pos, List.map_cons,
      List.map_nil, Diagnostic.capitalized_at, Problem.capitalized, same.name]

theorem parseLines_respell {raws others : List (List Char)}
    (same : List.Forall₂ Recased raws others) :
    (parseLines raws).capitalized = (parseLines others).capitalized := by
  have started : State.Respells {} {} := ⟨rfl, .none⟩
  have read := (State.run_respells (stepsFrom_respell 0 none same) started).finish
  have comment : unterminated 0 none raws = unterminated 0 none others := by
    rw [unterminated, unterminated, stripLines_respell 0 none same, same.length_eq]
  rw [parseLines_eq_run, parseLines_eq_run, Document.report_capitalized,
    Document.report_capitalized, read, comment]

/-- The keywords of conditionals may be written in any case. In another case, the same POUs,
members, variables, statements, unsupported code and problems are read at the same positions, up to
the case of letters in their texts. -/
theorem parse_respelled {source other : String} (respelled : Respelled source.toList other.toList) :
    (parse source).capitalized = (parse other).capitalized := by
  rw [parse_eq_parseLines, parse_eq_parseLines]
  exact parseLines_respell respelled.recased.lines

def mixedCaseSource : String :=
  "PROGRAM Main\nIf a > 1 Then b := 2; // if it is\neLSIF a > 0 tHEN b := 'else';\n" ++
    "Else c := 1 +\nend_if\nEnd_If;\nEND_PROGRAM\n"

def upperCaseSource : String :=
  "PROGRAM Main\nIF a > 1 THEN b := 2; // IF it is\nELSIF a > 0 THEN b := 'ELSE';\n" ++
    "ELSE c := 1 +\nEND_IF\nEND_IF;\nEND_PROGRAM\n"

theorem parse_mixedCaseSource :
    Respelled mixedCaseSource.toList upperCaseSource.toList ∧
      (parse mixedCaseSource).capitalized = (parse upperCaseSource).capitalized := by
  have respelled : Respelled mixedCaseSource.toList upperCaseSource.toList :=
    ⟨wordsAndSigns upperCaseSource.toList, by decide +kernel, (List.flatten_splitBy _ _).symm⟩
  exact ⟨respelled, parse_respelled respelled⟩

end StructuredText
