import StructuredText.Diagnostic
import StructuredText.Grammar.Assignment
import StructuredText.Grammar.Conditional

set_option autoImplicit false

namespace StructuredText

def putBack {α β ρ : Type} (whole : α → β) (part : Option (α × ρ)) : Option (β × ρ) :=
  part.map fun (a, found) => (whole a, found)

def modifyNth? {α ρ : Type} (change : α → Option (α × ρ)) : Nat → List α → Option (List α × ρ)
  | _, [] => none
  | 0, a :: rest => putBack (· :: rest) (change a)
  | index + 1, a :: rest => putBack (a :: ·) (modifyNth? change index rest)

inductive Branch where
  | thenBranch
  | elsifBranch (index : Nat)
  | elseBranch
  deriving DecidableEq

structure Turn where
  index : Nat
  branch : Branch
  deriving DecidableEq

namespace Conditional

def modifyBranch? {ρ : Type} (change : List Statement → Option (List Statement × ρ))
    (node : Conditional) : Branch → Option (Conditional × ρ)
  | .thenBranch =>
    putBack (fun statements => { node with thenBranch := statements }) (change node.thenBranch)
  | .elsifBranch index =>
    let changeBranch (branch : ElsifBranch) :=
      putBack (fun statements => { branch with statements }) (change branch.statements)
    putBack (fun branches => { node with elsifBranches := branches })
      (modifyNth? changeBranch index node.elsifBranches)
  | .elseBranch =>
    putBack (fun statements => { node with elseBranch := some statements })
      (change (node.elseBranch.getD []))

def addElsif (condition : String) (line : Nat) (node : Conditional) : Conditional × Branch :=
  ({ node with elsifBranches := node.elsifBranches ++ [⟨condition, [], line⟩] },
    .elsifBranch node.elsifBranches.length)

def addElse (node : Conditional) : Conditional × Branch :=
  ({ node with elseBranch := some [] }, .elseBranch)

end Conditional

namespace Statement

def modifyConditional? {ρ : Type} (change : Conditional → Option (Conditional × ρ)) :
    Statement → Option (Statement × ρ)
  | assignment .. => none
  | conditional node => putBack conditional (change node)

def modifyAt? {ρ : Type} (change : List Statement → Option (List Statement × ρ)) :
    List Turn → List Statement → Option (List Statement × ρ)
  | [], statements => change statements
  | turn :: path, statements =>
    modifyNth? (modifyConditional? (·.modifyBranch? (modifyAt? change path) turn.branch))
      turn.index statements

end Statement

structure Frame extends Turn where
  pos : Position
  deriving DecidableEq

structure Pending where
  text : List Char
  pos : Position
  deriving DecidableEq

def Pending.unterminated (pending : Pending) : Diagnostic :=
  (Problem.unterminatedStatement (String.ofList pending.text)).at pending.pos

structure Builder where
  -- The open IFs, the outermost first.
  frames : List Frame := []
  -- For each open block that the tree does not hold, how many IFs were open before it.
  blocks : List Nat := []
  pending : Option Pending := none
  deriving DecidableEq

inductive Fed where
  | statement
  | pending
  | unsupported (text : List Char)
  deriving DecidableEq

namespace Builder

def path (builder : Builder) : List Turn :=
  builder.frames.map Frame.toTurn

-- Appends to the innermost open branch, and says which number the statement has there. Where the
-- tree no longer has that branch, the statement goes to the end of the body and all IFs are
-- forgotten.
def append (builder : Builder) (statement : Statement) (root : List Statement) :
    Builder × List Statement × Nat :=
  let push (statements : List Statement) := some (statements ++ [statement], statements.length)
  match Statement.modifyAt? push builder.path root with
  | some (root, index) => (builder, root, index)
  | none => ({ builder with frames := [] }, root ++ [statement], root.length)

def modifyTop? {ρ : Type} (builder : Builder) (change : Conditional → Conditional × ρ)
    (root : List Statement) : Option (List Statement × ρ) :=
  builder.frames.getLast?.bind fun top =>
    Statement.modifyAt?
      (modifyNth? (Statement.modifyConditional? fun node => some (change node)) top.index)
      builder.path.dropLast root

def setBranch (builder : Builder) (branch : Branch) : Builder :=
  let top := builder.frames.getLast?.map fun frame => { frame with branch }
  { builder with frames := builder.frames.dropLast ++ top.toList }

def missingCondition? (keyword condition : String) : Option Problem :=
  if condition = "" then some (.missingCondition keyword) else none

def openBranch (builder : Builder) (root : List Statement) (keyword : String) (afterElse : Problem)
    (change : Conditional → Conditional × Branch) (problem : Option Problem) :
    Builder × List Statement × Option Problem :=
  match builder.frames.getLast? with
  | none => (builder, root, some (.unexpectedKeyword keyword))
  | some top =>
    if top.branch = .elseBranch then (builder, root, some afterElse)
    else
      match builder.modifyTop? change root with
      | none => (builder, root, some (.unexpectedKeyword keyword))
      | some (root, branch) => (builder.setBranch branch, root, problem)

def conditional (builder : Builder) (root : List Statement) (pos : Position) :
    ConditionalWord → Builder × List Statement × Option Problem
  | .ifThen condition =>
    let node := .conditional ⟨condition, [], [], none, pos.line⟩
    let (builder, root, index) := builder.append node root
    let frames := builder.frames ++ [{ index, branch := .thenBranch, pos }]
    ({ builder with frames }, root, missingCondition? "IF" condition)
  | .elsif condition =>
    builder.openBranch root "ELSIF" .elsifAfterElse (·.addElsif condition pos.line)
      (missingCondition? "ELSIF" condition)
  | .otherwise =>
    builder.openBranch root "ELSE" .duplicateElse Conditional.addElse none
  | .endIf =>
    if builder.frames = [] then (builder, root, some (.unexpectedKeyword "END_IF"))
    else
      let frames := builder.frames.dropLast
      let blocks := builder.blocks.filter fun depth => decide (depth ≤ frames.length)
      ({ builder with frames, blocks }, root, none)

def belongsToBlock (builder : Builder) : ConditionalWord → Bool
  | .otherwise | .elsif _ => builder.blocks.getLast? == some builder.frames.length
  | .ifThen _ | .endIf => false

structure Outcome where
  builder : Builder
  root : List Statement
  result : Except Problem Fed
  -- Diagnostics of an earlier statement that the fragment interrupted or completed.
  reported : List Diagnostic := []

def assign (builder : Builder) (root : List Statement) (text : List Char) (pos : Position)
    (assignment : Assignment) : Outcome :=
  if !assignment.terminated && expectsMore assignment.expression then
    { builder := { builder with pending := some ⟨text, pos⟩ }, root, result := .ok .pending }
  else
    let statement := .assignment (String.ofList assignment.target)
      (String.ofList assignment.expression) pos.line
    let (builder, root, _) := builder.append statement root
    let result := if assignment.terminated then .ok .statement else .error .missingSemicolon
    { builder, root, result }

-- Takes a text as one statement. A continued text was pending before, so it can neither open nor
-- close a block.
def build (builder : Builder) (root : List Statement) (text : List Char) (pos : Position)
    (continued : Bool) : Outcome :=
  let done (builder : Builder) (result : Except Problem Fed) : Outcome := { builder, root, result }
  match if continued then none else BlockWord.read? text with
  | some .opening =>
    done { builder with blocks := builder.blocks ++ [builder.frames.length] }
      (.ok (.unsupported text))
  | some .closing =>
    done { builder with blocks := builder.blocks.dropLast } (.ok (.unsupported text))
  | none =>
    match ConditionalWord.read? text, Assignment.read? text with
    | some word, _ =>
      if builder.belongsToBlock word then done builder (.ok (.unsupported text))
      else
        match builder.conditional root pos word with
        | (builder, root, none) => { builder, root, result := .ok .statement }
        | (builder, root, some problem) => { builder, root, result := .error problem }
    | none, some assignment => builder.assign root text pos assignment
    | none, none =>
      if (openCondition? text).isSome then
        if text.getLast? = some ';' then
          done builder (.error (.unterminatedStatement (String.ofList text)))
        else done { builder with pending := some ⟨text, pos⟩ } (.ok .pending)
      else if continued then done builder (.error (.unterminatedStatement (String.ofList text)))
      else done builder (.ok (.unsupported text))

-- Feeds one fragment. A pending statement is joined with it by a space, unless the fragment is a
-- keyword of a conditional.
def feed (builder : Builder) (root : List Statement) (text : List Char) (pos : Position) :
    Outcome :=
  match builder.pending with
  | none => builder.build root text pos false
  | some pending =>
    let builder := { builder with pending := none }
    if (ConditionalWord.read? text).isSome then
      let outcome := builder.build root text pos false
      { outcome with reported := [pending.unterminated] }
    else
      let outcome := builder.build root (pending.text ++ ' ' :: text) pending.pos true
      match outcome.result with
      | .ok _ => outcome
      | .error problem =>
        { outcome with result := .ok .statement, reported := [problem.at pending.pos] }

def dropPending (builder : Builder) : Builder × List Diagnostic :=
  ({ builder with pending := none }, (builder.pending.map Pending.unterminated).toList)

-- What is wrong if the body ends here. Only the outermost open IF is reported.
def close (builder : Builder) : List Diagnostic :=
  (builder.pending.map Pending.unterminated).toList ++
    (builder.frames.head?.map fun frame => Problem.unclosedIf.at frame.pos).toList

end Builder

end StructuredText
