import StructuredText.Proofs.TreeLines

set_option autoImplicit false

namespace StructuredText

structure PlacedText where
  text : List Char
  pos : Position

def Feeding.fragment? : Feeding → Option PlacedText
  | feed text pos => some ⟨text, pos⟩
  | drop => none

structure Group where
  first : PlacedText
  others : List PlacedText := []

namespace Group

def fragments (group : Group) : List PlacedText :=
  group.first :: group.others

def text (group : Group) : List Char :=
  [' '].intercalate (group.fragments.map PlacedText.text)

def join (group : Group) (next : PlacedText) : Group :=
  { group with others := group.others ++ [next] }

def pending (group : Group) : Pending :=
  ⟨group.text, group.first.pos⟩

theorem text_single (fragment : PlacedText) : text { first := fragment } = fragment.text := by
  simp [text, fragments, List.intercalate]

theorem text_join (group : Group) (next : PlacedText) :
    (group.join next).text = group.text ++ ' ' :: next.text := by
  obtain ⟨first, others⟩ := group
  simp only [text, join, fragments, List.map_cons, List.map_append, List.map_nil]
  induction others generalizing first with
  | nil => simp [List.intercalate]
  | cons second others ih =>
    have inner := ih second
    simp only [List.map_cons, List.intercalate, List.cons_append, List.intersperse_cons_cons,
      List.flatten_cons] at inner ⊢
    rw [inner]
    simp

end Group

inductive Fate where
  | accepted (line : CodeLine) (problem : Option Problem)
  | unsupported
  | rejected (problem : Problem)

namespace Fate

def line? : Fate → Option CodeLine
  | accepted line _ => some line
  | unsupported | rejected _ => none

def result (text : List Char) : Fate → Except Problem Fed
  | accepted _ none => .ok .statement
  | accepted _ (some problem) | rejected problem => .error problem
  | unsupported => .ok (.unsupported text)

def Fits (text : List Char) : Fate → Prop
  | accepted line problem =>
    CodeLine.read? text = some line ∧ ∀ p ∈ problem, p.keepsStatement = true
  | unsupported => True
  | rejected problem =>
    problem.keepsStatement = false ∧
      ∀ quoted, problem = .unterminatedStatement quoted → quoted = String.ofList text

end Fate

inductive Reply where
  | returned (result : Except Problem Fed)
  | reported (diagnostic : Diagnostic)

def Reply.waits : Reply :=
  returned (.ok .pending)

-- The replies to the last fragment of a group. A problem of one that has been pending is reported
-- at its first fragment, and the fragment that completes it counts as a statement.
def Group.answers (group : Group) (result : Except Problem Fed) : List Reply :=
  match result, group.others with
  | .error problem, _ :: _ =>
    [.reported (problem.at group.first.pos), .returned (.ok .statement)]
  | result, _ => [.returned result]

theorem Group.answers_single (fragment : PlacedText) (result : Except Problem Fed) :
    answers { first := fragment } result = [.returned result] := by
  cases result <;> rfl

theorem Group.answers_join (group : Group) (next : PlacedText) (result : Except Problem Fed) :
    (group.join next).answers result =
      match result with
      | .ok fed => [.returned (.ok fed)]
      | .error problem =>
        [.reported (problem.at group.first.pos), .returned (.ok .statement)] := by
  obtain ⟨first, others⟩ := group
  cases result with
  | ok fed => rfl
  | error problem => cases others <;> rfl

/-- A group with its fate. One that is not complete was pending when the next statement began or
when it was dropped. -/
structure Account where
  group : Group
  fate : Fate
  complete : Bool := true

namespace Account

def Fits (account : Account) : Prop :=
  account.fate.Fits account.group.text ∧
    (account.complete = false →
      account.fate = .rejected (.unterminatedStatement (String.ofList account.group.text)))

def replies (account : Account) : List Reply :=
  let waiting := account.group.others.length + if account.complete then 0 else 1
  List.replicate waiting .waits ++
    if account.complete then account.group.answers (account.fate.result account.group.text)
    else [.reported account.group.pending.unterminated]

end Account

def Group.dropped (group : Group) : Account where
  group
  fate := .rejected (.unterminatedStatement (String.ofList group.text))
  complete := false

theorem Group.dropped_fits (group : Group) : group.dropped.Fits := by
  refine ⟨⟨rfl, ?_⟩, fun _ => rfl⟩
  intro quoted same
  exact (Problem.unterminatedStatement.inj same).symm

theorem Group.dropped_replies (group : Group) :
    group.dropped.replies =
      List.replicate group.fragments.length .waits ++ [.reported group.pending.unterminated] := by
  simp [Account.replies, dropped, fragments]

namespace Growth

def replies (growth : Growth) : Feeding → List Reply
  | .feed text pos =>
    let outcome := growth.builder.feed growth.root text pos
    outcome.reported.map .reported ++ [.returned outcome.result]
  | .drop => growth.builder.dropPending.2.map .reported

def log (growth : Growth) : List Feeding → List Reply
  | [] => []
  | feeding :: rest => growth.replies feeding ++ (growth.step feeding).log rest

-- The body ends. Whatever is read next has a fresh builder.
def close (growth : Growth) : Growth × List Diagnostic :=
  ({ growth with builder := {} }, growth.builder.close)

def unclosed (growth : Growth) : List Diagnostic :=
  (growth.builder.frames.head?.map fun frame => Problem.unclosedIf.at frame.pos).toList

end Growth

namespace Builder

section Conditional

variable (builder : Builder) (root : List Statement) (pos : Position)

theorem openBranch_problem {keyword : String} {afterElse problem : Problem}
    {change : Conditional → Conditional × Branch} {missing : Option Problem}
    (refused : (builder.openBranch root keyword afterElse change missing).2.2 = some problem) :
    problem = .unexpectedKeyword keyword ∨ problem = afterElse ∨ missing = some problem := by
  unfold openBranch at refused
  split at refused
  · exact .inl (Option.some.inj refused).symm
  · split at refused
    · exact .inr (.inl (Option.some.inj refused).symm)
    · split at refused
      · exact .inl (Option.some.inj refused).symm
      · exact .inr (.inr refused)

theorem missingCondition?_ne_unterminated (keyword condition quoted : String) :
    missingCondition? keyword condition ≠ some (.unterminatedStatement quoted) := by
  simp [missingCondition?]

theorem conditional_ne_unterminated (word : ConditionalWord) (quoted : String) :
    (builder.conditional root pos word).2.2 ≠ some (.unterminatedStatement quoted) := by
  intro refused
  cases word with
  | ifThen condition => exact missingCondition?_ne_unterminated _ _ _ refused
  | elsif condition =>
    rcases builder.openBranch_problem root refused with same | same | missing
    · cases same
    · cases same
    · exact missingCondition?_ne_unterminated _ _ _ missing
  | otherwise =>
    rcases builder.openBranch_problem root refused with same | same | missing
    · cases same
    · cases same
    · cases missing
  | endIf =>
    simp only [conditional] at refused
    split at refused
    · cases refused
    · cases refused

end Conditional

def Settles (text : List Char) (pos : Position) (outcome : Outcome) : Prop :=
  (outcome.result = .ok .pending ∧ outcome.builder.pending = some ⟨text, pos⟩ ∧
      outcome.isKept = false) ∨
    ∃ fate : Fate, fate.Fits text ∧ outcome.result = fate.result text ∧
      outcome.builder.pending = none ∧
      fate.line? = if outcome.isKept then CodeLine.read? text else none

section Build

variable {builder : Builder} (idle : builder.pending = none) (root : List Statement)
  (text : List Char) (pos : Position)

include idle

theorem assign_settles {assignment : Assignment} (noWord : ConditionalWord.read? text = none)
    (read : Assignment.read? text = some assignment) :
    Settles text pos (builder.assign root text pos assignment) := by
  have line : CodeLine.read? text = some assignment.codeLine := by
    simp [CodeLine.read?, noWord, read]
  simp only [assign]
  split
  · exact .inl ⟨rfl, rfl, rfl⟩
  · right
    cases ended : assignment.terminated with
    | true =>
      refine ⟨.accepted assignment.codeLine none, ⟨line, by simp⟩, rfl, ?_, ?_⟩
      · exact (append_pending ..).trans idle
      · simp [Fate.line?, Outcome.isKept, line]
    | false =>
      refine ⟨.accepted assignment.codeLine (some .missingSemicolon), ⟨line, ?_⟩, rfl, ?_, ?_⟩
      · simp [Problem.keepsStatement]
      · exact (append_pending ..).trans idle
      · simp [Fate.line?, Outcome.isKept, Problem.keepsStatement, line]

theorem build_settles (continued : Bool) :
    Settles text pos (builder.build root text pos continued) := by
  have unsupported (other : Builder) (same : other.pending = builder.pending) :
      Settles text pos { builder := other, root, result := .ok (.unsupported text) } :=
    .inr ⟨.unsupported, trivial, rfl, same.trans idle, rfl⟩
  have unterminated : Settles text pos
      { builder, root, result := .error (.unterminatedStatement (String.ofList text)) } := by
    refine .inr ⟨.rejected _, ⟨rfl, ?_⟩, rfl, idle, rfl⟩
    intro quoted same
    exact (Problem.unterminatedStatement.inj same).symm
  simp only [build]
  split
  · exact unsupported _ rfl
  · exact unsupported _ rfl
  · split
    · rename_i word read
      have line : CodeLine.read? text = some word.codeLine := by simp [CodeLine.read?, read]
      split
      · exact unsupported _ rfl
      · have kept := conditional_pending builder root pos word
        have quotes := conditional_ne_unterminated builder root pos word
        split
        · rename_i next after taken
          simp only [taken] at kept
          right
          refine ⟨.accepted word.codeLine none, ⟨line, by simp⟩, rfl, kept.trans idle, ?_⟩
          simp [Fate.line?, Outcome.isKept, line]
        · rename_i next after problem taken
          simp only [taken] at kept quotes
          right
          cases keeps : problem.keepsStatement with
          | true =>
            refine ⟨.accepted word.codeLine (some problem), ⟨line, ?_⟩, rfl, kept.trans idle, ?_⟩
            · simpa using keeps
            · simp [Fate.line?, Outcome.isKept, keeps, line]
          | false =>
            refine ⟨.rejected problem, ⟨keeps, ?_⟩, rfl, kept.trans idle, ?_⟩
            · intro quoted same
              exact absurd (congrArg some same) (quotes quoted)
            · simp [Fate.line?, Outcome.isKept, keeps]
    · rename_i assignment noWord read
      exact assign_settles idle root text pos noWord read
    · split
      · split
        · exact unterminated
        · exact .inl ⟨rfl, rfl, rfl⟩
      · split
        · exact unterminated
        · exact unsupported _ rfl

end Build

end Builder

def openFragments (waiting : Option Group) : List PlacedText :=
  (waiting.map Group.fragments).getD []

def openReplies (waiting : Option Group) : List Reply :=
  List.replicate (openFragments waiting).length .waits

structure Balanced (waiting : Option Group) (fed : List PlacedText) (replies : List Reply)
    (lines : List CodeLine) (done : List Account) (after : Option Group) : Prop where
  fits : ∀ account ∈ done, account.Fits
  fragments : openFragments waiting ++ fed =
    done.flatMap (fun account => account.group.fragments) ++ openFragments after
  replies : openReplies waiting ++ replies = done.flatMap Account.replies ++ openReplies after
  lines : done.filterMap (fun account => account.fate.line?) = lines

namespace Balanced

theorem refl (waiting : Option Group) : Balanced waiting [] [] [] [] waiting :=
  ⟨by simp, by simp, by simp, rfl⟩

theorem trans {first second third : Option Group} {fed fed' : List PlacedText}
    {replies replies' : List Reply} {lines lines' : List CodeLine} {done done' : List Account}
    (one : Balanced first fed replies lines done second)
    (other : Balanced second fed' replies' lines' done' third) :
    Balanced first (fed ++ fed') (replies ++ replies') (lines ++ lines') (done ++ done') third where
  fits := by
    intro account member
    rcases List.mem_append.mp member with early | late
    · exact one.fits account early
    · exact other.fits account late
  fragments := by
    rw [← List.append_assoc, one.fragments, List.append_assoc, other.fragments]
    simp
  replies := by
    rw [← List.append_assoc, one.replies, List.append_assoc, other.replies]
    simp
  lines := by rw [List.filterMap_append, one.lines, other.lines]

theorem dropped (group : Group) :
    Balanced (some group) [] [.reported group.pending.unterminated] [] [group.dropped] none where
  fits := by simpa using group.dropped_fits
  fragments := by simp [openFragments, Group.dropped]
  replies := by simp [openReplies, openFragments, group.dropped_replies]
  lines := rfl

end Balanced

theorem Builder.Settles.balanced {group : Group} {fragment : PlacedText}
    {outcome : Builder.Outcome} (settles : Settles group.text group.first.pos outcome)
    (waiting : Option Group)
    (grown : group.fragments = openFragments waiting ++ [fragment]) :
    ∃ done after, outcome.builder.pending = after.map Group.pending ∧
      Balanced waiting [fragment] (group.answers outcome.result)
        (if outcome.isKept then CodeLine.read? group.text else none).toList done after := by
  have count : (openFragments waiting).length = group.others.length := by
    have lengths := congrArg List.length grown
    simp only [Group.fragments, List.length_cons, List.length_append, List.length_nil] at lengths
    omega
  rcases settles with ⟨result, pending, lost⟩ | ⟨fate, fits, result, idle, line⟩
  · refine ⟨[], some group, pending, ⟨by simp, ?_, ?_, by simp [lost]⟩⟩
    · simp [openFragments, grown]
    · have total : (openFragments (some group)).length = group.others.length + 1 := rfl
      simp [openReplies, count, total, result, Group.answers, Reply.waits, List.replicate_succ']
  · refine ⟨[{ group, fate }], none, idle, ⟨?_, ?_, ?_, ?_⟩⟩
    · simpa [Account.Fits] using fits
    · simp [openFragments, grown]
    · have nothing : openFragments none = [] := rfl
      simp [openReplies, count, nothing, Account.replies, result]
    · rw [← line]
      cases accepted : fate.line? <;> simp [accepted]

namespace Growth

variable {growth : Growth}

theorem feed_balanced {waiting : Option Group}
    (pending : growth.builder.pending = waiting.map Group.pending) (text : List Char)
    (pos : Position) :
    ∃ done after, (growth.step (.feed text pos)).builder.pending = after.map Group.pending ∧
      Balanced waiting [⟨text, pos⟩] (growth.replies (.feed text pos))
        (growth.acceptedIn (.feed text pos)).toList done after := by
  obtain ⟨⟨frames, blocks, waits⟩, root⟩ := growth
  obtain rfl : waits = waiting.map Group.pending := pending
  have alone : Builder.Settles (Group.text { first := ⟨text, pos⟩ }) pos
      (Builder.build { frames, blocks } root text pos false) := by
    rw [Group.text_single]
    exact Builder.build_settles rfl root text pos false
  obtain ⟨done, after, next, balanced⟩ := alone.balanced none rfl
  rw [Group.answers_single, Group.text_single] at balanced
  simp only [step, replies, acceptedIn, Builder.accepted, Builder.takeOffered, Builder.offered,
    Builder.feed]
  cases waiting with
  | none =>
    refine ⟨done, after, next, ?_⟩
    simp only [Option.map_none, Builder.build_reported, List.map_nil, List.nil_append]
    exact balanced
  | some group =>
    by_cases word : (ConditionalWord.read? text).isSome
    · -- The keyword ends the group that waits and is a group of its own.
      have ended := (Balanced.dropped group).trans balanced
      refine ⟨group.dropped :: done, after, ?_, ?_⟩
      · simpa [word] using next
      · simpa [word] using ended
    · have joined : Builder.Settles (group.join ⟨text, pos⟩).text group.first.pos
          (Builder.build { frames, blocks } root (group.text ++ ' ' :: text) group.first.pos
            true) := by
        rw [Group.text_join]
        exact Builder.build_settles rfl root _ _ true
      obtain ⟨done, after, next, balanced⟩ := joined.balanced (some group) rfl
      rw [Group.text_join, Group.answers_join] at balanced
      refine ⟨done, after, ?_, ?_⟩
      · cases result : (Builder.build { frames, blocks } root (group.text ++ ' ' :: text)
            group.first.pos true).result <;>
          simpa [word, Group.pending, result] using next
      · cases result : (Builder.build { frames, blocks } root (group.text ++ ' ' :: text)
            group.first.pos true).result <;>
          simpa [word, Group.pending, result, Builder.build_reported] using balanced

theorem step_balanced {waiting : Option Group}
    (pending : growth.builder.pending = waiting.map Group.pending) (feeding : Feeding) :
    ∃ done after, (growth.step feeding).builder.pending = after.map Group.pending ∧
      Balanced waiting feeding.fragment?.toList (growth.replies feeding)
        (growth.acceptedIn feeding).toList done after := by
  cases feeding with
  | feed text pos => exact feed_balanced pending text pos
  | drop =>
    cases waiting with
    | none =>
      refine ⟨[], none, rfl, ?_⟩
      simpa [replies, Builder.dropPending, pending] using .refl none
    | some group =>
      refine ⟨[group.dropped], none, rfl, ?_⟩
      simpa [replies, Builder.dropPending, pending] using .dropped group

theorem run_balanced (growth : Growth) (waiting : Option Group)
    (pending : growth.builder.pending = waiting.map Group.pending) (feedings : List Feeding) :
    ∃ done after, (growth.run feedings).builder.pending = after.map Group.pending ∧
      Balanced waiting (feedings.filterMap Feeding.fragment?) (growth.log feedings)
        (growth.accepted feedings) done after := by
  induction feedings generalizing growth waiting with
  | nil => exact ⟨[], waiting, pending, .refl waiting⟩
  | cons feeding rest ih =>
    obtain ⟨done, next, nextPending, first⟩ := step_balanced pending feeding
    obtain ⟨others, after, afterPending, following⟩ := ih _ _ nextPending
    refine ⟨done ++ others, after, afterPending, ?_⟩
    have whole := first.trans following
    cases fed : feeding.fragment? <;> simpa [fed, log, accepted] using whole

theorem close_balanced {waiting : Option Group}
    (pending : growth.builder.pending = waiting.map Group.pending) :
    ∃ replies done, growth.close.2.map Reply.reported =
        replies ++ growth.unclosed.map Reply.reported ∧
      Balanced waiting [] replies [] done none := by
  cases waiting with
  | none => exact ⟨[], [], by simp [close, Builder.close, pending, unclosed], .refl none⟩
  | some group =>
    refine ⟨_, _, ?_, .dropped group⟩
    simp [close, Builder.close, pending, unclosed]

theorem fragments_accounted (root : List Statement) (feedings : List Feeding) :
    let start : Growth := { root }
    let growth := start.run feedings
    ∃ accounts : List Account,
      accounts.flatMap (fun account => account.group.fragments) =
          feedings.filterMap Feeding.fragment? ∧
        (∀ account ∈ accounts, account.Fits) ∧
        openLines growth.builder.path growth.root =
          openLines [] root ++ accounts.filterMap (fun account => account.fate.line?) ∧
        start.log feedings ++ growth.close.2.map .reported =
          accounts.flatMap Account.replies ++ growth.unclosed.map .reported ∧
        growth.close.1.builder.pending = none := by
  intro start growth
  have fresh : start.Tracks { inner := root } := Builder.Tracks.fresh root
  obtain ⟨cursor, tracks, lines⟩ := tracks_run fresh feedings
  obtain ⟨done, waiting, pending, during⟩ := run_balanced start none rfl feedings
  obtain ⟨replies, last, closing, atEnd⟩ := close_balanced pending
  have whole := during.trans atEnd
  refine ⟨done ++ last, ?_, whole.fits, ?_, ?_, rfl⟩
  · simpa [openFragments] using whole.fragments.symm
  · rw [whole.lines, tracks.path, tracks.root, cursor.openLines_root, lines]
    simp [Cursor.lines]
  · have balance := whole.replies
    simp only [openReplies, openFragments, Option.map_none, Option.getD_none, List.length_nil,
      List.replicate_zero, List.nil_append, List.append_nil] at balance
    rw [closing, ← List.append_assoc, balance]

end Growth

end StructuredText
