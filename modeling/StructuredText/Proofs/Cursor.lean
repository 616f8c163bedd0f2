import StructuredText.Render
import StructuredText.StatementTree

set_option autoImplicit false

namespace StructuredText

inductive OpenPart where
  | thenPart
  | elsifPart (thenBranch : List Statement) (elsifs : List ElsifBranch) (condition : String)
      (line : Nat)
  | elsePart (thenBranch : List Statement) (elsifs : List ElsifBranch)

structure OpenIf where
  before : List Statement
  condition : String
  line : Nat
  part : OpenPart

namespace OpenIf

def branch (opened : OpenIf) : Branch :=
  match opened.part with
  | .thenPart => .thenBranch
  | .elsifPart _ elsifs _ _ => .elsifBranch elsifs.length
  | .elsePart .. => .elseBranch

def turn (opened : OpenIf) : Turn :=
  ⟨opened.before.length, opened.branch⟩

def node (opened : OpenIf) (inner : List Statement) : Conditional :=
  match opened.part with
  | .thenPart => ⟨opened.condition, inner, [], none, opened.line⟩
  | .elsifPart thenBranch elsifs condition line =>
    ⟨opened.condition, thenBranch, elsifs ++ [⟨condition, inner, line⟩], none, opened.line⟩
  | .elsePart thenBranch elsifs =>
    ⟨opened.condition, thenBranch, elsifs, some inner, opened.line⟩

def close (opened : OpenIf) (inner : List Statement) : List Statement :=
  opened.before ++ [.conditional (opened.node inner)]

def startElsif (opened : OpenIf) (inner : List Statement) (condition : String) (line : Nat) :
    OpenIf :=
  { opened with part :=
      .elsifPart (opened.node inner).thenBranch (opened.node inner).elsifBranches condition line }

def startElse (opened : OpenIf) (inner : List Statement) : OpenIf :=
  { opened with part := .elsePart (opened.node inner).thenBranch (opened.node inner).elsifBranches }

theorem node_startElsif {opened : OpenIf} (inner body : List Statement) (condition : String)
    (line : Nat) (unfinished : opened.branch ≠ .elseBranch) :
    (opened.startElsif inner condition line).node body =
      { opened.node inner with
        elsifBranches := (opened.node inner).elsifBranches ++ [⟨condition, body, line⟩] } := by
  obtain ⟨before, outer, number, part⟩ := opened
  cases part with
  | elsePart => simp [branch] at unfinished
  | thenPart => rfl
  | elsifPart => rfl

theorem node_startElse {opened : OpenIf} (inner body : List Statement)
    (unfinished : opened.branch ≠ .elseBranch) :
    (opened.startElse inner).node body = { opened.node inner with elseBranch := some body } := by
  obtain ⟨before, outer, number, part⟩ := opened
  cases part with
  | elsePart => simp [branch] at unfinished
  | thenPart => rfl
  | elsifPart => rfl

end OpenIf

section PutBack

variable {ρ : Type}

@[simp] theorem putBack_putBack {α β γ : Type} (outer : β → γ) (whole : α → β)
    (part : Option (α × ρ)) :
    putBack outer (putBack whole part) = putBack (outer ∘ whole) part := by
  cases part <;> rfl

theorem modifyNth?_length {α : Type} (change : α → Option (α × ρ)) (before : List α) (last : α) :
    modifyNth? change before.length (before ++ [last]) =
      putBack (fun a => before ++ [a]) (change last) := by
  induction before with
  | nil => rfl
  | cons a before ih =>
    rw [List.cons_append, List.length_cons, modifyNth?, ih, putBack_putBack]
    rfl

theorem OpenIf.modifyBranch?_node (opened : OpenIf)
    (change : List Statement → Option (List Statement × ρ)) (inner : List Statement) :
    (opened.node inner).modifyBranch? change opened.branch =
      putBack opened.node (change inner) := by
  obtain ⟨before, condition, line, part⟩ := opened
  cases part with
  | thenPart => rfl
  | elsifPart thenBranch elsifs condition line =>
    simp only [node, branch, Conditional.modifyBranch?, modifyNth?_length, putBack_putBack]
    rfl
  | elsePart => rfl

end PutBack

def fill (ifs : List OpenIf) (inner : List Statement) : List Statement :=
  ifs.foldr OpenIf.close inner

@[simp] theorem fill_nil (inner : List Statement) : fill [] inner = inner := rfl

@[simp] theorem fill_cons (opened : OpenIf) (ifs : List OpenIf) (inner : List Statement) :
    fill (opened :: ifs) inner = opened.close (fill ifs inner) := rfl

@[simp] theorem fill_append (outer ifs : List OpenIf) (inner : List Statement) :
    fill (outer ++ ifs) inner = fill outer (fill ifs inner) := by
  simp [fill]

theorem modifyAt?_fill {ρ : Type} (change : List Statement → Option (List Statement × ρ))
    (ifs : List OpenIf) (inner : List Statement) :
    Statement.modifyAt? change (ifs.map OpenIf.turn) (fill ifs inner) =
      putBack (fill ifs) (change inner) := by
  induction ifs with
  | nil => cases read : change inner <;> simp [Statement.modifyAt?, putBack, read]
  | cons opened ifs ih =>
    simp only [List.map_cons, Statement.modifyAt?, fill_cons, OpenIf.close, OpenIf.turn,
      modifyNth?_length, Statement.modifyConditional?, OpenIf.modifyBranch?_node, ih,
      putBack_putBack]
    rfl

def inside (branch : Branch) : List Turn → List Turn
  | [] => []
  | turn :: path => if turn.branch = branch then path else []

def intoFirst : List Turn → List Turn
  | ⟨0, branch⟩ :: path => ⟨0, branch⟩ :: path
  | _ => []

def pastFirst : List Turn → List Turn
  | ⟨index + 1, branch⟩ :: path => ⟨index, branch⟩ :: path
  | _ => []

def pastElsif : List Turn → List Turn
  | ⟨index, .elsifBranch (number + 1)⟩ :: path => ⟨index, .elsifBranch number⟩ :: path
  | _ => []

mutual

-- The lines of a statement. An IF on the path is unfinished and has no END_IF yet.
def Statement.openLines (path : List Turn) : Statement → List CodeLine
  | .assignment target expression _ => [.assignment target expression]
  | .conditional node => Conditional.openLines path node

def Conditional.openLines (path : List Turn) : Conditional → List CodeLine
  | ⟨condition, thenBranch, elsifBranches, elseBranch, _⟩ =>
    .ifThen condition :: openLines (inside .thenBranch path) thenBranch ++
      openElsifLines path elsifBranches ++
      (match elseBranch with
        | none => []
        | some statements => .otherwise :: openLines (inside .elseBranch path) statements) ++
      if path.isEmpty then [.endIf] else []

def openLines (path : List Turn) : List Statement → List CodeLine
  | [] => []
  | statement :: rest => statement.openLines (intoFirst path) ++ openLines (pastFirst path) rest

def openElsifLines (path : List Turn) : List ElsifBranch → List CodeLine
  | [] => []
  | ⟨condition, statements, _⟩ :: rest =>
    .elsif condition :: openLines (inside (.elsifBranch 0) path) statements ++
      openElsifLines (pastElsif path) rest

end

@[simp] theorem inside_nil (branch : Branch) : inside branch [] = [] := rfl

@[simp] theorem intoFirst_nil : intoFirst [] = [] := rfl

@[simp] theorem pastFirst_nil : pastFirst [] = [] := rfl

@[simp] theorem pastElsif_nil : pastElsif [] = [] := rfl

mutual

theorem Statement.map_snd_codeLines (depth : Nat) :
    (statement : Statement) →
      (statement.codeLines depth).map Prod.snd = statement.openLines []
  | .assignment .. => by simp [Statement.codeLines, Statement.openLines]
  | .conditional node => by
    simpa [Statement.codeLines, Statement.openLines] using node.map_snd_codeLines depth

theorem Conditional.map_snd_codeLines (depth : Nat) :
    (node : Conditional) → (node.codeLines depth).map Prod.snd = node.openLines []
  | ⟨condition, thenBranch, elsifBranches, none, line⟩ => by
    simp [Conditional.codeLines, Conditional.openLines,
      map_snd_statementLines (depth + 1) thenBranch, map_snd_elsifLines depth elsifBranches]
  | ⟨condition, thenBranch, elsifBranches, some elseBranch, line⟩ => by
    simp [Conditional.codeLines, Conditional.openLines,
      map_snd_statementLines (depth + 1) thenBranch, map_snd_elsifLines depth elsifBranches,
      map_snd_statementLines (depth + 1) elseBranch]

theorem map_snd_statementLines (depth : Nat) :
    (statements : List Statement) →
      (statementLines depth statements).map Prod.snd = openLines [] statements
  | [] => by simp [statementLines, openLines]
  | statement :: rest => by
    simp [statementLines, openLines, statement.map_snd_codeLines depth,
      map_snd_statementLines depth rest]

theorem map_snd_elsifLines (depth : Nat) :
    (elsifs : List ElsifBranch) →
      (elsifLines depth elsifs).map Prod.snd = openElsifLines [] elsifs
  | [] => by simp [elsifLines, openElsifLines]
  | ⟨condition, statements, line⟩ :: rest => by
    simp [elsifLines, openElsifLines, map_snd_statementLines (depth + 1) statements,
      map_snd_elsifLines depth rest]

end

@[simp] theorem openLines_append (before after : List Statement) :
    openLines [] (before ++ after) = openLines [] before ++ openLines [] after := by
  induction before with
  | nil => simp [openLines]
  | cons statement before ih => simp [openLines, ih]

@[simp] theorem openElsifLines_append (before after : List ElsifBranch) :
    openElsifLines [] (before ++ after) = openElsifLines [] before ++ openElsifLines [] after := by
  induction before with
  | nil => simp [openElsifLines]
  | cons branch before ih =>
    obtain ⟨condition, statements, line⟩ := branch
    simp [openElsifLines, ih]

theorem openLines_concat (branch : Branch) (path : List Turn) (before : List Statement)
    (last : Statement) :
    openLines (⟨before.length, branch⟩ :: path) (before ++ [last]) =
      openLines [] before ++ last.openLines (⟨0, branch⟩ :: path) := by
  induction before with
  | nil => simp [openLines, intoFirst]
  | cons statement before ih => simp [openLines, intoFirst, pastFirst, ih]

theorem openElsifLines_concat (index : Nat) (path : List Turn) (before : List ElsifBranch)
    (last : ElsifBranch) :
    openElsifLines (⟨index, .elsifBranch before.length⟩ :: path) (before ++ [last]) =
      openElsifLines [] before ++ .elsif last.condition :: openLines path last.statements := by
  obtain ⟨condition, statements, line⟩ := last
  induction before with
  | nil => simp [openElsifLines, inside]
  | cons branch before ih =>
    obtain ⟨first, others, number⟩ := branch
    simp [openElsifLines, inside, pastElsif, ih]

theorem openElsifLines_of_other {turn : Turn} (other : ∀ number, turn.branch ≠ .elsifBranch number)
    (path : List Turn) (elsifs : List ElsifBranch) :
    openElsifLines (turn :: path) elsifs = openElsifLines [] elsifs := by
  have past : pastElsif (turn :: path) = [] := by
    obtain ⟨index, branch⟩ := turn
    cases branch with
    | elsifBranch number => exact absurd rfl (other number)
    | thenBranch | elseBranch => rfl
  cases elsifs with
  | nil => simp [openElsifLines]
  | cons branch rest =>
    obtain ⟨condition, statements, line⟩ := branch
    simp [openElsifLines, inside, other, past]

namespace OpenIf

def lines (opened : OpenIf) : List CodeLine :=
  openLines [] opened.before ++ .ifThen opened.condition ::
    match opened.part with
    | .thenPart => []
    | .elsifPart thenBranch elsifs condition _ =>
      openLines [] thenBranch ++ openElsifLines [] elsifs ++ [.elsif condition]
    | .elsePart thenBranch elsifs =>
      openLines [] thenBranch ++ openElsifLines [] elsifs ++ [.otherwise]

theorem openLines_close (opened : OpenIf) (path : List Turn) (inner : List Statement) :
    openLines (opened.turn :: path) (opened.close inner) =
      opened.lines ++ openLines path inner := by
  obtain ⟨before, condition, line, part⟩ := opened
  rw [turn, close, openLines_concat]
  cases part with
  | thenPart =>
    simp [lines, branch, node, Statement.openLines, Conditional.openLines, inside, openElsifLines]
  | elsifPart =>
    simp [lines, branch, node, Statement.openLines, Conditional.openLines, inside,
      openElsifLines_concat]
  | elsePart =>
    simp [lines, branch, node, Statement.openLines, Conditional.openLines, inside,
      openElsifLines_of_other]

theorem openLines_nil_close (opened : OpenIf) (inner : List Statement) :
    openLines [] (opened.close inner) = opened.lines ++ openLines [] inner ++ [.endIf] := by
  obtain ⟨before, condition, line, part⟩ := opened
  rw [close, openLines_append]
  cases part <;>
    simp [lines, node, openLines, Statement.openLines, Conditional.openLines, openElsifLines]

theorem lines_startElsif {opened : OpenIf} (inner : List Statement) (condition : String)
    (line : Nat) (unfinished : opened.branch ≠ .elseBranch) :
    (opened.startElsif inner condition line).lines =
      opened.lines ++ openLines [] inner ++ [.elsif condition] := by
  obtain ⟨before, outer, number, part⟩ := opened
  cases part with
  | elsePart => simp [branch] at unfinished
  | thenPart => simp [lines, startElsif, node, openElsifLines]
  | elsifPart => simp [lines, startElsif, node, openElsifLines]

theorem lines_startElse {opened : OpenIf} (inner : List Statement)
    (unfinished : opened.branch ≠ .elseBranch) :
    (opened.startElse inner).lines = opened.lines ++ openLines [] inner ++ [.otherwise] := by
  obtain ⟨before, outer, number, part⟩ := opened
  cases part with
  | elsePart => simp [branch] at unfinished
  | thenPart => simp [lines, startElse, node, openElsifLines]
  | elsifPart => simp [lines, startElse, node, openElsifLines]

end OpenIf

theorem openLines_fill (ifs : List OpenIf) (inner : List Statement) :
    openLines (ifs.map OpenIf.turn) (fill ifs inner) =
      ifs.flatMap OpenIf.lines ++ openLines [] inner := by
  induction ifs with
  | nil => simp
  | cons opened ifs ih => simp [OpenIf.openLines_close, ih]

structure Cursor where
  ifs : List OpenIf := []
  inner : List Statement := []

namespace Cursor

def root (cursor : Cursor) : List Statement :=
  fill cursor.ifs cursor.inner

def lines (cursor : Cursor) : List CodeLine :=
  cursor.ifs.flatMap OpenIf.lines ++ openLines [] cursor.inner

def startBranch (cursor : Cursor) (start : OpenIf → OpenIf) : Option Cursor :=
  match cursor.ifs.getLast? with
  | none => none
  | some opened =>
    if opened.branch = .elseBranch then none
    else some { ifs := cursor.ifs.dropLast ++ [start opened] }

def write (cursor : Cursor) (line : Nat) : CodeLine → Option Cursor
  | .assignment target expression =>
    some { cursor with inner := cursor.inner ++ [.assignment target expression line] }
  | .ifThen condition =>
    some { ifs := cursor.ifs ++ [⟨cursor.inner, condition, line, .thenPart⟩] }
  | .elsif condition =>
    cursor.startBranch fun opened => opened.startElsif cursor.inner condition line
  | .otherwise => cursor.startBranch fun opened => opened.startElse cursor.inner
  | .endIf =>
    cursor.ifs.getLast?.map fun opened => ⟨cursor.ifs.dropLast, opened.close cursor.inner⟩

theorem openLines_root (cursor : Cursor) :
    openLines (cursor.ifs.map OpenIf.turn) cursor.root = cursor.lines :=
  openLines_fill cursor.ifs cursor.inner

theorem startBranch_eq_some {cursor after : Cursor} {start : OpenIf → OpenIf}
    (started : cursor.startBranch start = some after) :
    ∃ outer opened, cursor.ifs = outer ++ [opened] ∧ opened.branch ≠ .elseBranch ∧
      after = { ifs := outer ++ [start opened] } := by
  unfold startBranch at started
  split at started
  · cases started
  · rename_i opened last
    obtain ⟨outer, shape⟩ := List.getLast?_eq_some_iff.mp last
    simp only [shape, List.dropLast_concat, Option.ite_none_left_eq_some, Option.some.injEq]
      at started
    exact ⟨outer, opened, shape, started.1, started.2.symm⟩

theorem lines_write {cursor after : Cursor} {line : Nat} {code : CodeLine}
    (written : cursor.write line code = some after) : after.lines = cursor.lines ++ [code] := by
  cases code with
  | assignment target expression =>
    cases written
    simp [lines, openLines, Statement.openLines]
  | ifThen condition =>
    cases written
    simp [lines, OpenIf.lines, openLines]
  | elsif condition =>
    obtain ⟨outer, opened, shape, unfinished, rfl⟩ := startBranch_eq_some written
    simp [lines, shape, OpenIf.lines_startElsif _ _ _ unfinished, openLines]
  | otherwise =>
    obtain ⟨outer, opened, shape, unfinished, rfl⟩ := startBranch_eq_some written
    simp [lines, shape, OpenIf.lines_startElse _ unfinished, openLines]
  | endIf =>
    obtain ⟨opened, last, rfl⟩ := Option.map_eq_some_iff.mp written
    obtain ⟨outer, shape⟩ := List.getLast?_eq_some_iff.mp last
    simp [lines, shape, OpenIf.openLines_nil_close]

end Cursor

end StructuredText
