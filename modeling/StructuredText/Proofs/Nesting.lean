import Mathlib.Control.Monad.Basic
import StructuredText.Proofs.TreeLines

set_option autoImplicit false

namespace StructuredText

inductive Level where
  | conditional (pos : Position)
  | block
  deriving DecidableEq

inductive NestingWord where
  | block (word : BlockWord)
  | conditional (word : ConditionalWord)
  deriving DecidableEq

def NestingWord.read? (text : List Char) (continued : Bool) : Option NestingWord :=
  match if continued then none else BlockWord.read? text with
  | some word => some (block word)
  | none => (ConditionalWord.read? text).map conditional

def ConditionalWord.isBranch : ConditionalWord → Bool
  | elsif _ | otherwise => true
  | ifThen _ | endIf => false

namespace Level

def ifs : List Level → List Position
  | [] => []
  | conditional pos :: outer => pos :: ifs outer
  | block :: outer => ifs outer

-- Each block counts the IFs outside of it. The block that was opened first comes first.
def depths : List Level → List Nat
  | [] => []
  | conditional _ :: outer => depths outer
  | block :: outer => depths outer ++ [(ifs outer).length]

def withoutIf (stack : List Level) : List Level :=
  (stack.dropWhile (· == block)).tail

def after (stack : List Level) (pos : Position) : NestingWord → List Level
  | .block .opening => block :: stack
  | .block .closing => stack.erase block
  | .conditional (.ifThen _) => conditional pos :: stack
  | .conditional .endIf => if ifs stack = [] then stack else withoutIf stack
  | .conditional (.elsif _) | .conditional .otherwise => stack

theorem depths_le {stack : List Level} : ∀ depth ∈ depths stack, depth ≤ (ifs stack).length := by
  induction stack with
  | nil => simp [depths]
  | cons level outer ih =>
    intro depth member
    cases level with
    | conditional pos => exact Nat.le_succ_of_le (ih depth member)
    | block =>
      rcases List.mem_append.mp member with earlier | last
      · exact ih depth earlier
      · exact Nat.le_of_eq (List.mem_singleton.mp last)

theorem depths_pairwise (stack : List Level) : (depths stack).Pairwise (· ≤ ·) := by
  induction stack with
  | nil => exact .nil
  | cons level outer ih =>
    cases level with
    | conditional pos => exact ih
    | block =>
      rw [depths, List.pairwise_append]
      refine ⟨ih, by simp, fun depth member last isLast => ?_⟩
      rw [List.mem_singleton.mp isLast]
      exact depths_le depth member

theorem getLast?_depths (stack : List Level) :
    (depths stack).getLast? = some (ifs stack).length ↔ stack.head? = some block := by
  cases stack with
  | nil => simp [depths]
  | cons level outer =>
    cases level with
    | conditional pos =>
      have absent : (depths outer).getLast? ≠ some ((ifs outer).length + 1) := by
        intro last
        have inside := depths_le _ (List.mem_of_getLast? last)
        omega
      simpa [depths, ifs] using absent
    | block => simp [depths, ifs]

theorem eq_of_depths {stack other : List Level} (sameIfs : ifs stack = ifs other)
    (sameDepths : depths stack = depths other) : stack = other := by
  induction stack generalizing other with
  | nil =>
    cases other with
    | nil => rfl
    | cons level outer => cases level <;> simp [ifs, depths] at sameIfs sameDepths
  | cons level outer ih =>
    have tops : (level :: outer).head? = some block ↔ other.head? = some block := by
      rw [← getLast?_depths, ← getLast?_depths, sameIfs, sameDepths]
    cases other with
    | nil => cases level <;> simp [ifs, depths] at sameIfs sameDepths
    | cons top rest =>
      cases level <;> cases top
      · obtain ⟨rfl, inner⟩ := List.cons.inj sameIfs
        rw [ih inner sameDepths]
      · simp at tops
      · simp at tops
      · obtain ⟨earlier, -⟩ := List.append_inj' sameDepths rfl
        rw [@ih rest sameIfs earlier]

theorem erase_block (stack : List Level) :
    ifs (stack.erase block) = ifs stack ∧ depths (stack.erase block) = (depths stack).dropLast := by
  induction stack with
  | nil => exact ⟨rfl, rfl⟩
  | cons level outer ih =>
    cases level with
    | conditional pos => simpa [List.erase_cons, ifs, depths] using ih
    | block => simp [ifs, depths]

theorem ifs_withoutIf (stack : List Level) : ifs (withoutIf stack) = (ifs stack).tail := by
  induction stack with
  | nil => rfl
  | cons level outer ih =>
    cases level with
    | conditional pos => rfl
    | block => exact ih

theorem depths_withoutIf {stack : List Level} (isOpen : ifs stack ≠ []) :
    depths (withoutIf stack) =
      (depths stack).filter fun depth => decide (depth ≤ (ifs stack).tail.length) := by
  induction stack with
  | nil => exact absurd rfl isOpen
  | cons level outer ih =>
    cases level with
    | conditional pos =>
      have all : ∀ depth ∈ depths outer, decide (depth ≤ (ifs outer).length) = true := by
        simpa using @depths_le outer
      exact (List.filter_eq_self.mpr all).symm
    | block =>
      have nonempty : 0 < (ifs outer).length := List.length_pos_iff.mpr isOpen
      have inside : ¬ (ifs outer).length ≤ (ifs outer).length - 1 := by omega
      have same : depths (withoutIf (block :: outer)) = depths (withoutIf outer) := rfl
      rw [same, ih isOpen, depths, List.filter_append]
      simp [ifs, inside]

end Level

open Level (ifs depths)

structure Builder.Nests (builder : Builder) (stack : List Level) : Prop where
  frames : builder.frames.map Frame.pos = (ifs stack).reverse
  blocks : builder.blocks = depths stack

namespace Builder

def Outcome.Raises (outcome : Outcome) (offered : List Char × Position × Bool)
    (problem : Problem) : Prop :=
  if offered.2.2 then
    outcome.result = .ok .statement ∧ outcome.reported = [problem.at offered.2.1]
  else outcome.result = .error problem

theorem feed_answers (builder : Builder) (root : List Statement) (text : List Char)
    (pos : Position) :
    match (builder.takeOffered root text pos).result with
    | .ok fed => (builder.feed root text pos).result = .ok fed
    | .error problem => (builder.feed root text pos).Raises (builder.offered text pos) problem := by
  obtain ⟨frames, blocks, pending⟩ := builder
  cases pending with
  | none =>
    simp only [takeOffered, offered, feed, Outcome.Raises]
    cases (build { frames, blocks } root text pos false).result <;> simp
  | some pending =>
    simp only [takeOffered, offered, feed, Outcome.Raises]
    by_cases isWord : (ConditionalWord.read? text).isSome = true
    · simp only [isWord, if_true]
      cases (build { frames, blocks } root text pos false).result <;> simp
    · simp only [isWord, Bool.false_eq_true, if_false]
      cases result : (build { frames, blocks } root (pending.text ++ ' ' :: text) pending.pos
        true).result <;> simp [result]

namespace Nests

variable {builder : Builder} {stack : List Level}

theorem unique {other : List Level} (nests : builder.Nests stack) (another : builder.Nests other) :
    other = stack := by
  have same := another.frames.symm.trans nests.frames
  exact Level.eq_of_depths (List.reverse_inj.mp same) (another.blocks.symm.trans nests.blocks)

theorem of_same {other : Builder} (nests : builder.Nests stack)
    (frames : other.frames.map Frame.pos = builder.frames.map Frame.pos)
    (blocks : other.blocks = builder.blocks) : other.Nests stack :=
  ⟨frames.trans nests.frames, blocks.trans nests.blocks⟩

theorem length_frames (nests : builder.Nests stack) :
    builder.frames.length = (ifs stack).length := by
  simpa using congrArg List.length nests.frames

theorem frames_eq_nil_iff (nests : builder.Nests stack) :
    builder.frames = [] ↔ ifs stack = [] := by
  rw [← List.length_eq_zero_iff, nests.length_frames, List.length_eq_zero_iff]

theorem belongsToBlock_iff (nests : builder.Nests stack) (word : ConditionalWord) :
    builder.belongsToBlock word = true ↔
      word.isBranch = true ∧ stack.head? = some .block := by
  rw [← Level.getLast?_depths, ← nests.blocks, ← nests.length_frames]
  cases word <;> simp [belongsToBlock, ConditionalWord.isBranch]

end Nests

section Build

variable {builder : Builder} {stack : List Level} {root : List Statement} {cursor : Cursor}
  {text : List Char} {pos : Position}

theorem openBranch_levels (builder : Builder) (root : List Statement) (keyword : String)
    (afterElse : Problem) (change : Conditional → Conditional × Branch) (problem : Option Problem) :
    let next := (builder.openBranch root keyword afterElse change problem).1
    next.frames.map Frame.pos = builder.frames.map Frame.pos ∧ next.blocks = builder.blocks := by
  simp only [openBranch]
  split
  · exact ⟨rfl, rfl⟩
  · rename_i top isTop
    split
    · exact ⟨rfl, rfl⟩
    · split
      · exact ⟨rfl, rfl⟩
      · obtain ⟨frames, shape⟩ := List.getLast?_eq_some_iff.mp isTop
        simp [setBranch, shape]

theorem Nests.conditional (nests : builder.Nests stack) (tracks : builder.Tracks root cursor)
    (word : ConditionalWord) :
    (builder.conditional root pos word).1.Nests (Level.after stack pos (.conditional word)) := by
  cases word with
  | ifThen condition =>
    refine ⟨?_, ?_⟩
    · simp [Builder.conditional, tracks.append_eq, Level.after, ifs, nests.frames]
    · simp [Builder.conditional, tracks.append_eq, Level.after, depths, nests.blocks]
  | elsif condition =>
    obtain ⟨frames, blocks⟩ := openBranch_levels builder root "ELSIF" .elsifAfterElse
      (·.addElsif condition pos.line) (missingCondition? "ELSIF" condition)
    exact nests.of_same frames blocks
  | otherwise =>
    obtain ⟨frames, blocks⟩ := openBranch_levels builder root "ELSE" .duplicateElse
      Conditional.addElse none
    exact nests.of_same frames blocks
  | endIf =>
    by_cases none : ifs stack = []
    · rw [Builder.conditional, if_pos (nests.frames_eq_nil_iff.mpr none), Level.after, if_pos none]
      exact nests
    · have depth : builder.frames.dropLast.length = (ifs stack).tail.length := by
        rw [List.length_dropLast, List.length_tail, nests.length_frames]
      rw [Builder.conditional, if_neg (mt nests.frames_eq_nil_iff.mp none), Level.after,
        if_neg none]
      refine ⟨?_, ?_⟩
      · simp only [List.map_dropLast, nests.frames, Level.ifs_withoutIf, List.dropLast_reverse]
      · simp only [nests.blocks, Level.depths_withoutIf none, depth]

theorem build_of_block {continued : Bool} {word : BlockWord}
    (read : NestingWord.read? text continued = some (.block word)) :
    builder.build root text pos continued =
      { builder :=
          match word with
          | .opening => { builder with blocks := builder.blocks ++ [builder.frames.length] }
          | .closing => { builder with blocks := builder.blocks.dropLast }
        root
        result := .ok (.unsupported text) } := by
  simp only [NestingWord.read?] at read
  split at read
  · rename_i found isBlock
    cases read
    cases word <;> simp only [build, isBlock]
  · simp at read

theorem build_of_conditional {continued : Bool} {word : ConditionalWord}
    (read : NestingWord.read? text continued = some (.conditional word)) :
    builder.build root text pos continued =
      if builder.belongsToBlock word then
        { builder, root, result := .ok (.unsupported text) }
      else
        let taken := builder.conditional root pos word
        { builder := taken.1
          root := taken.2.1
          result := (taken.2.2.map Except.error).getD (.ok .statement) } := by
  simp only [NestingWord.read?] at read
  split at read
  · cases read
  · rename_i noBlock
    obtain ⟨found, isWord, same⟩ := Option.map_eq_some_iff.mp read
    cases same
    simp only [build, noBlock, isWord]
    split
    · rfl
    · rcases builder.conditional root pos word with ⟨next, root, _ | problem⟩ <;> rfl

theorem Nests.build (nests : builder.Nests stack) (tracks : builder.Tracks root cursor)
    (continued : Bool) :
    (builder.build root text pos continued).builder.Nests
      (((NestingWord.read? text continued).map (Level.after stack pos)).getD stack) := by
  cases read : NestingWord.read? text continued with
  | some word =>
    rw [Option.map_some, Option.getD_some]
    cases word with
    | block word =>
      rw [build_of_block read]
      cases word with
      | opening =>
        refine ⟨nests.frames, ?_⟩
        simp [Level.after, depths, nests.blocks, nests.length_frames]
      | closing =>
        obtain ⟨sameIfs, dropped⟩ := Level.erase_block stack
        refine ⟨?_, ?_⟩
        · simp [Level.after, sameIfs, nests.frames]
        · simp [Level.after, dropped, nests.blocks]
    | conditional word =>
      rw [build_of_conditional read]
      split
      · rename_i belongs
        obtain ⟨isBranch, -⟩ := (nests.belongsToBlock_iff word).mp belongs
        cases word with
        | elsif condition | otherwise => exact nests
        | ifThen condition | endIf => cases isBranch
      · exact nests.conditional tracks word
  | none =>
    simp only [NestingWord.read?] at read
    split at read
    · cases read
    · rename_i noBlock
      simp only [Option.map_none, Option.getD_none, Builder.build, noBlock,
        Option.map_eq_none_iff.mp read]
      split
      · cases ‹none = some _›
      · rename_i assignment _ _
        simp only [assign]
        split
        · exact nests.of_same rfl rfl
        · rw [tracks.append_eq]
          exact nests
      · split
        · split <;> exact nests.of_same rfl rfl
        · split <;> exact nests.of_same rfl rfl

-- A branch word outside of blocks begins a branch of the innermost IF, unless that has its ELSE.
theorem Nests.branch {continued : Bool} {word : ConditionalWord} {keyword : String}
    {afterElse : Problem} {change : Conditional → Conditional × Branch} {missing : Option Problem}
    {start : OpenIf → List Statement → OpenIf} (nests : builder.Nests stack)
    (tracks : builder.Tracks root cursor)
    (read : NestingWord.read? text continued = some (.conditional word))
    (isBranch : word.isBranch = true)
    (opens : builder.conditional root pos word =
      builder.openBranch root keyword afterElse change missing)
    (starts : ∀ opened : OpenIf, opened.branch ≠ .elseBranch → ∀ inner,
      change (opened.node inner) = ((start opened inner).node [], (start opened inner).branch) ∧
        (start opened inner).before = opened.before ∧ (start opened inner).line = opened.line) :
    let outcome := builder.build root text pos continued
    (stack.head? = some .block ∧ outcome = { builder, root, result := .ok (.unsupported text) }) ∨
      (stack = [] ∧ outcome = { builder, root, result := .error (.unexpectedKeyword keyword) }) ∨
      ∃ ifPos outer, stack = .conditional ifPos :: outer ∧ ∃ before opened,
        cursor.ifs = before ++ [opened] ∧ opened.line = ifPos.line ∧
        ((opened.branch = .elseBranch ∧
            outcome = { builder, root, result := .error afterElse }) ∨
          (opened.branch ≠ .elseBranch ∧
            outcome.result = (missing.map Except.error).getD (.ok .statement) ∧
            outcome.builder.Tracks outcome.root
              { ifs := before ++ [start opened cursor.inner] })) := by
  intro outcome
  have shape : outcome = _ := build_of_conditional read
  by_cases inBlock : stack.head? = some .block
  · left
    rw [if_pos ((nests.belongsToBlock_iff word).mpr ⟨isBranch, inBlock⟩)] at shape
    exact ⟨inBlock, shape⟩
  · right
    have outside : ¬ builder.belongsToBlock word = true :=
      fun belongs => inBlock ((nests.belongsToBlock_iff word).mp belongs).2
    rw [if_neg outside, opens] at shape
    cases stack with
    | nil =>
      left
      have noFrames : builder.frames = [] := nests.frames_eq_nil_iff.mpr rfl
      refine ⟨rfl, ?_⟩
      simpa [openBranch, noFrames] using shape
    | cons level outer =>
      right
      cases level with
      | block => exact absurd rfl inBlock
      | conditional ifPos =>
        refine ⟨ifPos, outer, rfl, ?_⟩
        -- The stack and the cursor say the same of the innermost IF.
        have someIf : cursor.ifs ≠ [] := by
          intro none
          have noFrames : builder.frames = [] := by simpa [none] using tracks.frames
          cases nests.frames_eq_nil_iff.mp noFrames
        obtain ⟨before, opened, split⟩ := (List.eq_nil_or_concat cursor.ifs).resolve_left someIf
        rw [List.concat_eq_append] at split
        obtain ⟨frames, frame, isTop, -, mark⟩ := tracks.concat split
        have line : opened.line = ifPos.line := by
          have last := congrArg List.getLast? nests.frames
          rw [isTop, List.map_append, List.getLast?_append, List.getLast?_reverse] at last
          have pos : frame.pos = ifPos := by simpa [ifs] using last
          rw [← pos]
          exact (congrArg Prod.snd mark).symm
        refine ⟨before, opened, split, line, ?_⟩
        by_cases finished : opened.branch = .elseBranch
        · left
          have branch : frame.branch = .elseBranch := by
            rw [← finished]
            exact congrArg (·.1.branch) mark
          refine ⟨finished, ?_⟩
          simpa [openBranch, isTop, branch] using shape
        · right
          obtain ⟨changed, same⟩ := starts opened finished cursor.inner
          obtain ⟨next, result, follows, -⟩ :=
            tracks.openBranch_written split finished changed same keyword afterElse missing
          rw [result] at shape
          rw [shape]
          exact ⟨finished, rfl, follows⟩

end Build

end Builder

namespace Growth

def nestingWord? (growth : Growth) (text : List Char) (pos : Position) : Option NestingWord :=
  let (joined, _, continued) := growth.builder.offered text pos
  NestingWord.read? joined continued

def levelsAfter (growth : Growth) (stack : List Level) : Feeding → List Level
  | .feed text pos =>
    let start := (growth.builder.offered text pos).2.1
    ((growth.nestingWord? text pos).map (Level.after stack start)).getD stack
  | .drop => stack

def levels (growth : Growth) (stack : List Level) : List Feeding → List Level
  | [] => stack
  | feeding :: rest => (growth.step feeding).levels (growth.levelsAfter stack feeding) rest

-- The fragment changes nothing, but a statement that was pending has ended.
def Refuses (growth : Growth) (text : List Char) (pos : Position) (problem : Problem) : Prop :=
  growth.step (.feed text pos) = growth.step .drop ∧
    (growth.builder.feed growth.root text pos).Raises (growth.builder.offered text pos) problem

structure Branches (growth : Growth) (stack : List Level) (text : List Char) (pos : Position)
    (word : ConditionalWord) (keyword : String) (afterElse : Problem)
    (start : OpenIf → List Statement → OpenIf) : Prop where
  unsupported :
    (growth.builder.feed growth.root text pos).result =
        .ok (.unsupported (growth.builder.offered text pos).1) ↔
      stack.head? = some .block
  untouched : stack.head? = some .block → growth.step (.feed text pos) = growth.step .drop
  unexpected : stack = [] → growth.Refuses text pos (.unexpectedKeyword keyword)
  attached : ∀ ifPos outer, stack = .conditional ifPos :: outer → ∃ before opened inner,
    growth.Tracks ⟨before ++ [opened], inner⟩ ∧ opened.line = ifPos.line ∧
      if opened.branch = .elseBranch then growth.Refuses text pos afterElse
      else
        growth.acceptedIn (.feed text pos) = some word.codeLine ∧
          (growth.step (.feed text pos)).Tracks { ifs := before ++ [start opened inner] }

structure Nested (growth : Growth) (stack : List Level) (text : List Char) (pos : Position) :
    Prop where
  nests : (growth.step (.feed text pos)).builder.Nests (growth.levelsAfter stack (.feed text pos))
  block : ∀ word, growth.nestingWord? text pos = some (.block word) →
    (growth.builder.feed growth.root text pos).result =
      .ok (.unsupported (growth.builder.offered text pos).1)
  ifThen : ∀ condition, growth.nestingWord? text pos = some (.conditional (.ifThen condition)) →
    growth.acceptedIn (.feed text pos) = some (.ifThen condition)
  endIf : growth.nestingWord? text pos = some (.conditional .endIf) → ifs stack ≠ [] →
    growth.acceptedIn (.feed text pos) = some .endIf
  strayEndIf : growth.nestingWord? text pos = some (.conditional .endIf) → ifs stack = [] →
    growth.Refuses text pos (.unexpectedKeyword "END_IF")
  elsif : ∀ condition, growth.nestingWord? text pos = some (.conditional (.elsif condition)) →
    growth.Branches stack text pos (.elsif condition) "ELSIF" .elsifAfterElse
      fun opened inner =>
        opened.startElsif inner condition (growth.builder.offered text pos).2.1.line
  otherwise : growth.nestingWord? text pos = some (.conditional .otherwise) →
    growth.Branches stack text pos .otherwise "ELSE" .duplicateElse OpenIf.startElse

section Feed

variable {growth : Growth} {stack : List Level} {cursor : Cursor}

def taken (growth : Growth) (text : List Char) (pos : Position) : Builder.Outcome :=
  growth.builder.takeOffered growth.root text pos

theorem step_feed (growth : Growth) (text : List Char) (pos : Position) :
    growth.step (.feed text pos) =
      ⟨(growth.taken text pos).builder, (growth.taken text pos).root⟩ := by
  obtain ⟨sameBuilder, sameRoot⟩ := growth.builder.feed_eq_takeOffered growth.root text pos
  rw [step, sameBuilder, sameRoot]
  rfl

theorem nests_step (nests : growth.builder.Nests stack) (tracks : growth.Tracks cursor)
    (feeding : Feeding) :
    (growth.step feeding).builder.Nests (growth.levelsAfter stack feeding) := by
  cases feeding with
  | feed text pos =>
    have idle : Builder.Nests { growth.builder with pending := none } stack := nests.of_same rfl rfl
    rw [step_feed]
    exact idle.build (Builder.Tracks.of_frames tracks rfl) _
  | drop => exact nests.of_same rfl rfl

theorem nests_run (nests : growth.builder.Nests stack) (tracks : growth.Tracks cursor)
    (feedings : List Feeding) :
    (growth.run feedings).builder.Nests (growth.levels stack feedings) := by
  induction feedings generalizing growth stack cursor with
  | nil => exact nests
  | cons feeding rest ih =>
    obtain ⟨next, following, -⟩ := tracks_step tracks feeding
    exact ih (nests_step nests tracks feeding) following

section Answers

variable {text : List Char} {pos : Position}

theorem taken_of_conditional {word : ConditionalWord}
    (read : growth.nestingWord? text pos = some (.conditional word)) :
    growth.taken text pos =
      if growth.builder.dropPending.1.belongsToBlock word then
        { builder := growth.builder.dropPending.1
          root := growth.root
          result := .ok (.unsupported (growth.builder.offered text pos).1) }
      else
        let taken := growth.builder.dropPending.1.conditional growth.root
          (growth.builder.offered text pos).2.1 word
        { builder := taken.1
          root := taken.2.1
          result := (taken.2.2.map Except.error).getD (.ok .statement) } :=
  Builder.build_of_conditional read

theorem result_of_taken {fed : Fed} (taken : (growth.taken text pos).result = .ok fed) :
    (growth.builder.feed growth.root text pos).result = .ok fed := by
  have answers := growth.builder.feed_answers growth.root text pos
  rwa [show (growth.builder.takeOffered growth.root text pos).result = .ok fed from taken]
    at answers

theorem raises_of_taken {problem : Problem}
    (taken : (growth.taken text pos).result = .error problem) :
    (growth.builder.feed growth.root text pos).Raises (growth.builder.offered text pos)
      problem := by
  have answers := growth.builder.feed_answers growth.root text pos
  rwa [show (growth.builder.takeOffered growth.root text pos).result = .error problem from taken]
    at answers

theorem refuses_of_taken {problem : Problem}
    (taken : growth.taken text pos =
      { builder := growth.builder.dropPending.1, root := growth.root, result := .error problem }) :
    growth.Refuses text pos problem := by
  refine ⟨?_, raises_of_taken (by rw [taken])⟩
  rw [step_feed, taken]
  rfl

theorem not_unsupported_of_raises {offered : List Char × Position × Bool} {problem : Problem}
    {outcome : Builder.Outcome} (raises : outcome.Raises offered problem) (text : List Char) :
    outcome.result ≠ .ok (.unsupported text) := by
  unfold Builder.Outcome.Raises at raises
  split at raises
  · simp [raises.1]
  · simp [raises]

theorem accepted_of_taken {word : ConditionalWord} {missing : Option Problem}
    (read : growth.nestingWord? text pos = some (.conditional word))
    (taken : (growth.taken text pos).result = (missing.map Except.error).getD (.ok .statement))
    (keeps : ∀ problem ∈ missing, problem.keepsStatement = true) :
    growth.acceptedIn (.feed text pos) = some word.codeLine := by
  have line : CodeLine.read? (growth.builder.offered text pos).1 = some word.codeLine := by
    simp only [nestingWord?, NestingWord.read?] at read
    split at read
    · cases read
    · obtain ⟨found, isWord, same⟩ := Option.map_eq_some_iff.mp read
      cases same
      simp [CodeLine.read?, isWord]
  have kept : (growth.taken text pos).isKept = true := by
    rw [Builder.Outcome.isKept, taken]
    cases missing with
    | none => rfl
    | some problem => exact keeps problem rfl
  rw [acceptedIn, Builder.accepted, ← line]
  exact if_pos kept

theorem branches {word : ConditionalWord} {keyword : String} {afterElse : Problem}
    {change : Conditional → Conditional × Branch} {missing : Option Problem}
    {start : OpenIf → List Statement → OpenIf} (nests : growth.builder.Nests stack)
    (tracks : growth.Tracks cursor)
    (read : growth.nestingWord? text pos = some (.conditional word))
    (isBranch : word.isBranch = true)
    (opens : ∀ (builder : Builder) (root : List Statement),
      builder.conditional root (growth.builder.offered text pos).2.1 word =
        builder.openBranch root keyword afterElse change missing)
    (starts : ∀ opened : OpenIf, opened.branch ≠ .elseBranch → ∀ inner,
      change (opened.node inner) = ((start opened inner).node [], (start opened inner).branch) ∧
        (start opened inner).before = opened.before ∧ (start opened inner).line = opened.line)
    (keeps : ∀ problem ∈ missing, problem.keepsStatement = true) :
    growth.Branches stack text pos word keyword afterElse start := by
  let idle := growth.builder.dropPending.1
  have idleNests : idle.Nests stack := nests.of_same rfl rfl
  have idleTracks : idle.Tracks growth.root cursor := Builder.Tracks.of_frames tracks rfl
  -- The word is code in a block, stray outside of all IFs, or a branch of the innermost IF.
  rcases idleNests.branch idleTracks read isBranch (opens idle growth.root) starts with
    ⟨inBlock, taken⟩ | ⟨rfl, taken⟩ | ⟨ifPos, outer, rfl, before, opened, split, line, taken⟩
  · refine ⟨iff_of_true (result_of_taken (congrArg Builder.Outcome.result taken)) inBlock,
      fun _ => ?_, ?_, ?_⟩
    · rw [step_feed, show growth.taken text pos = _ from taken]
      rfl
    · rintro rfl
      cases inBlock
    · rintro ifPos outer rfl
      cases inBlock
  · have refuses := refuses_of_taken taken
    refine ⟨iff_of_false (not_unsupported_of_raises refuses.2 _) (by simp), by simp,
      fun _ => refuses, by simp⟩
  · rcases taken with ⟨finished, taken⟩ | ⟨unfinished, result, follows⟩
    · have refuses := refuses_of_taken taken
      refine ⟨iff_of_false (not_unsupported_of_raises refuses.2 _) (by simp), by simp, by simp, ?_⟩
      rintro _ _ ⟨rfl, rfl⟩
      exact ⟨before, opened, cursor.inner, split ▸ tracks, line, by rwa [if_pos finished]⟩
    · refine ⟨iff_of_false ?_ (by simp), by simp, by simp, ?_⟩
      · cases missing with
        | none =>
          have answer : (growth.builder.feed growth.root text pos).result = .ok .statement :=
            result_of_taken result
          simp [answer]
        | some problem => exact not_unsupported_of_raises (raises_of_taken result) _
      · rintro _ _ ⟨rfl, rfl⟩
        refine ⟨before, opened, cursor.inner, split ▸ tracks, line, ?_⟩
        rw [if_neg unfinished, step_feed]
        exact ⟨accepted_of_taken read result keeps, follows⟩

end Answers

theorem nested (nests : growth.builder.Nests stack) (tracks : growth.Tracks cursor)
    (text : List Char) (pos : Position) : growth.Nested stack text pos := by
  let idle := growth.builder.dropPending.1
  have idleNests : idle.Nests stack := nests.of_same rfl rfl
  have idleTracks : idle.Tracks growth.root cursor := Builder.Tracks.of_frames tracks rfl
  have takes {word : ConditionalWord}
      (read : growth.nestingWord? text pos = some (.conditional word))
      (noBranch : word.isBranch = false) :
      let taken := idle.conditional growth.root (growth.builder.offered text pos).2.1 word
      growth.taken text pos =
        { builder := taken.1
          root := taken.2.1
          result := (taken.2.2.map Except.error).getD (.ok .statement) } := by
    have outside : ¬ idle.belongsToBlock word = true := by
      rw [idleNests.belongsToBlock_iff, noBranch]
      simp
    have taken := taken_of_conditional read
    rwa [if_neg outside] at taken
  refine
    { nests := nests_step nests tracks (.feed text pos)
      block := fun word read => result_of_taken ?_
      ifThen := fun condition read => ?_
      endIf := fun read isOpen => ?_
      strayEndIf := fun read none => refuses_of_taken ?_
      elsif := fun condition read => ?_
      otherwise := fun read => ?_ }
  · exact congrArg Builder.Outcome.result (Builder.build_of_block read)
  · have result : (growth.taken text pos).result =
        ((Builder.missingCondition? "IF" condition).map Except.error).getD (.ok .statement) := by
      rw [takes read rfl]
      rfl
    exact accepted_of_taken read result
      fun problem missing => (ConditionalWord.ifThen condition).keepsStatement_missing? missing
  · have someFrame : idle.frames ≠ [] := mt idleNests.frames_eq_nil_iff.mp isOpen
    have result : (growth.taken text pos).result =
        ((none : Option Problem).map Except.error).getD (.ok .statement) := by
      rw [takes read rfl, Builder.conditional, if_neg someFrame]
    exact accepted_of_taken read result (by simp)
  · have noFrames : idle.frames = [] := idleNests.frames_eq_nil_iff.mpr none
    rw [takes read rfl, Builder.conditional, if_pos noFrames]
    rfl
  · refine branches nests tracks read rfl (fun _ _ => rfl) (fun opened unfinished inner => ?_)
      fun problem missing => (ConditionalWord.elsif condition).keepsStatement_missing? missing
    refine ⟨?_, rfl, rfl⟩
    rw [OpenIf.node_startElsif inner [] condition _ unfinished]
    rfl
  · refine branches nests tracks read rfl (fun _ _ => rfl) (fun opened unfinished inner => ?_)
      (by simp)
    refine ⟨?_, rfl, rfl⟩
    rw [OpenIf.node_startElse inner [] unfinished]
    rfl

end Feed

theorem nested_run (root : List Statement) (feedings : List Feeding) :
    let start : Growth := { root }
    let growth := start.run feedings
    let stack := start.levels [] feedings
    growth.builder.Nests stack ∧ (∀ other, growth.builder.Nests other → other = stack) ∧
      growth.builder.blocks.Pairwise (· ≤ ·) ∧
      (∀ depth ∈ growth.builder.blocks, depth ≤ growth.builder.frames.length) ∧
      (growth.step .drop).builder.Nests stack ∧
      ∀ text pos, growth.Nested stack text pos := by
  intro start growth stack
  have fresh : start.Tracks { inner := root } := Builder.Tracks.fresh root
  have nests : growth.builder.Nests stack := nests_run ⟨rfl, rfl⟩ fresh feedings
  obtain ⟨cursor, tracks, -⟩ := tracks_run fresh feedings
  refine ⟨nests, fun other => nests.unique, ?_, ?_, nests_step nests tracks .drop, ?_⟩
  · rw [nests.blocks]
    exact Level.depths_pairwise stack
  · rw [nests.blocks, nests.length_frames]
    exact Level.depths_le
  · exact nested nests tracks

theorem elsif_refused_after_else :
    let feed (text : String) (line : Nat) : Feeding := .feed text.toList ⟨line, 1⟩
    let growth := run {} [feed "IF a THEN" 1, feed "ELSE" 2]
    let outcome := growth.builder.feed growth.root "ELSIF b THEN".toList ⟨3, 1⟩
    levels {} [] [feed "IF a THEN" 1, feed "ELSE" 2] = [.conditional ⟨1, 1⟩] ∧
      growth.nestingWord? "ELSIF b THEN".toList ⟨3, 1⟩ = some (.conditional (.elsif "b")) ∧
      outcome.result = .error .elsifAfterElse ∧
      openLines outcome.builder.path outcome.root = [.ifThen "a", .otherwise] := by
  decide +kernel

end Growth

end StructuredText
