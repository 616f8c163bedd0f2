import StructuredText.Proofs.Cursor

set_option autoImplicit false

namespace StructuredText

mutual

def Statement.withoutNumbers : Statement → Statement
  | .assignment target expression _ => .assignment target expression 0
  | .conditional node => .conditional node.withoutNumbers

def Conditional.withoutNumbers : Conditional → Conditional
  | ⟨condition, thenBranch, elsifBranches, elseBranch, _⟩ =>
    { condition
      thenBranch := withoutNumbers thenBranch
      elsifBranches := elsifsWithoutNumbers elsifBranches
      elseBranch :=
        match elseBranch with
        | none => none
        | some statements => some (withoutNumbers statements)
      line := 0 }

def withoutNumbers : List Statement → List Statement
  | [] => []
  | statement :: rest => statement.withoutNumbers :: withoutNumbers rest

def elsifsWithoutNumbers : List ElsifBranch → List ElsifBranch
  | [] => []
  | ⟨condition, statements, _⟩ :: rest =>
    ⟨condition, withoutNumbers statements, 0⟩ :: elsifsWithoutNumbers rest

end

@[simp] theorem withoutNumbers_append (before after : List Statement) :
    withoutNumbers (before ++ after) = withoutNumbers before ++ withoutNumbers after := by
  induction before with
  | nil => simp [withoutNumbers]
  | cons statement before ih => simp [withoutNumbers, ih]

namespace Cursor

def writeFrom : Nat → Cursor → List CodeLine → Option Cursor
  | _, cursor, [] => some cursor
  | number, cursor, code :: codes =>
    (cursor.write number code).bind fun next => writeFrom (number + 1) next codes

theorem writeFrom_append {number : Nat} {cursor middle : Cursor} {before after : List CodeLine}
    (written : cursor.writeFrom number before = some middle) :
    cursor.writeFrom number (before ++ after) =
      middle.writeFrom (number + before.length) after := by
  induction before generalizing number cursor with
  | nil =>
    cases written
    rfl
  | cons code before ih =>
    obtain ⟨next, first, rest⟩ := Option.bind_eq_some_iff.mp written
    simp only [List.cons_append, writeFrom, first, Option.bind_some]
    rw [ih rest, List.length_cons, Nat.add_right_comm, Nat.add_assoc]

end Cursor

def Rewrites (statements : List Statement) : Prop :=
  ∀ (number : Nat) (ifs : List OpenIf) (inner : List Statement), ∃ written,
    Cursor.writeFrom number ⟨ifs, inner⟩ (openLines [] statements) =
        some ⟨ifs, inner ++ written⟩ ∧
      withoutNumbers written = withoutNumbers statements

namespace Cursor

theorem write_elsif (number : Nat) (condition : String) (ifs : List OpenIf) {opened : OpenIf}
    (inner : List Statement) (unfinished : opened.branch ≠ .elseBranch) :
    Cursor.write ⟨ifs ++ [opened], inner⟩ number (.elsif condition) =
      some ⟨ifs ++ [opened.startElsif inner condition number], []⟩ := by
  simp [write, startBranch, unfinished]

theorem write_otherwise (number : Nat) (ifs : List OpenIf) {opened : OpenIf}
    (inner : List Statement) (unfinished : opened.branch ≠ .elseBranch) :
    Cursor.write ⟨ifs ++ [opened], inner⟩ number .otherwise =
      some ⟨ifs ++ [opened.startElse inner], []⟩ := by
  simp [write, startBranch, unfinished]

theorem write_endIf (number : Nat) (ifs : List OpenIf) (opened : OpenIf) (inner : List Statement) :
    Cursor.write ⟨ifs ++ [opened], inner⟩ number .endIf = some ⟨ifs, opened.close inner⟩ := by
  simp [write]

end Cursor

theorem writeFrom_elsifs {elsifs : List ElsifBranch}
    (branches : ∀ branch ∈ elsifs, Rewrites branch.statements) (number : Nat) (ifs : List OpenIf)
    {opened : OpenIf} (inner : List Statement) (unfinished : opened.branch ≠ .elseBranch) :
    ∃ next rest written,
      Cursor.writeFrom number ⟨ifs ++ [opened], inner⟩ (openElsifLines [] elsifs) =
          some ⟨ifs ++ [next], rest⟩ ∧
        next.before = opened.before ∧ next.branch ≠ .elseBranch ∧
        next.node rest =
          { opened.node inner with
            elsifBranches := (opened.node inner).elsifBranches ++ written } ∧
        elsifsWithoutNumbers written = elsifsWithoutNumbers elsifs := by
  induction elsifs generalizing number opened inner with
  | nil =>
    refine ⟨opened, inner, [], by simp [openElsifLines, Cursor.writeFrom], rfl, unfinished, ?_, rfl⟩
    cases opened.node inner
    simp
  | cons branch elsifs ih =>
    obtain ⟨condition, statements, line⟩ := branch
    let started := opened.startElsif inner condition number
    obtain ⟨body, wrote, same⟩ :=
      branches ⟨condition, statements, line⟩ List.mem_cons_self (number + 1) (ifs ++ [started]) []
    have others : ∀ branch ∈ elsifs, Rewrites branch.statements :=
      fun branch member => branches branch (List.mem_cons_of_mem _ member)
    have isElsif : started.branch ≠ .elseBranch := by
      simp [started, OpenIf.startElsif, OpenIf.branch]
    -- Behind the statements of a branch the cursor is back in the IF, with that branch closed.
    obtain ⟨next, rest, written, wroteOthers, before, stillOpen, node, sameOthers⟩ :=
      ih others (number + 1 + (openLines [] statements).length) body isElsif
    refine ⟨next, rest, ⟨condition, body, number⟩ :: written, ?_, before, stillOpen, ?_, ?_⟩
    · simp only [openElsifLines, inside_nil, pastElsif_nil, List.cons_append, Cursor.writeFrom,
        Cursor.write_elsif _ _ _ _ unfinished, Option.bind_some]
      rw [Cursor.writeFrom_append wrote]
      exact wroteOthers
    · rw [node, OpenIf.node_startElsif _ _ _ _ unfinished]
      simp
    · simp only [elsifsWithoutNumbers, same, sameOthers]

theorem writeFrom_otherwise {otherwise : Option (List Statement)}
    (elseBranch : ∀ statements, otherwise = some statements → Rewrites statements) (number : Nat)
    (ifs : List OpenIf) {opened : OpenIf} (inner : List Statement)
    (unfinished : opened.branch ≠ .elseBranch) :
    ∃ written,
      Cursor.writeFrom number ⟨ifs ++ [opened], inner⟩
          ((match otherwise with
            | none => []
            | some statements => .otherwise :: openLines [] statements) ++ [.endIf]) =
          some ⟨ifs, opened.before ++
            [.conditional { opened.node inner with elseBranch := written }]⟩ ∧
        written.map withoutNumbers = otherwise.map withoutNumbers := by
  cases otherwise with
  | none =>
    have noElse : (opened.node inner).elseBranch = none := by
      obtain ⟨before, condition, line, part⟩ := opened
      cases part with
      | elsePart => simp [OpenIf.branch] at unfinished
      | thenPart | elsifPart => rfl
    refine ⟨none, ?_, rfl⟩
    simp only [List.nil_append, Cursor.writeFrom, Cursor.write_endIf, Option.bind_some,
      OpenIf.close]
    generalize opened.node inner = node at noElse
    cases node
    cases noElse
    rfl
  | some statements =>
    obtain ⟨body, wrote, same⟩ :=
      elseBranch statements rfl (number + 1) (ifs ++ [opened.startElse inner]) []
    refine ⟨some body, ?_, by simp [same]⟩
    simp only [List.cons_append, Cursor.writeFrom, Cursor.write_otherwise _ _ _ unfinished,
      Option.bind_some]
    rw [Cursor.writeFrom_append wrote]
    simp only [Cursor.writeFrom, Cursor.write_endIf, Option.bind_some, OpenIf.close,
      List.nil_append, OpenIf.node_startElse _ _ unfinished]
    rfl

theorem Rewrites.conditional {condition : String} {thenBranch : List Statement}
    {elsifs : List ElsifBranch} {otherwise : Option (List Statement)}
    (thenRewrites : Rewrites thenBranch)
    (elsifsRewrite : ∀ branch ∈ elsifs, Rewrites branch.statements)
    (elseRewrites : ∀ statements, otherwise = some statements → Rewrites statements) (line : Nat) :
    Rewrites [.conditional ⟨condition, thenBranch, elsifs, otherwise, line⟩] := by
  intro number ifs inner
  let opened : OpenIf := ⟨inner, condition, number, .thenPart⟩
  have isThen : opened.branch ≠ .elseBranch := by simp [opened, OpenIf.branch]
  obtain ⟨body, wroteThen, sameThen⟩ := thenRewrites (number + 1) (ifs ++ [opened]) []
  obtain ⟨next, rest, branches, wroteElsifs, before, stillOpen, node, sameElsifs⟩ :=
    writeFrom_elsifs elsifsRewrite (number + 1 + (openLines [] thenBranch).length) ifs body isThen
  obtain ⟨written, wroteElse, sameElse⟩ :=
    writeFrom_otherwise elseRewrites
      (number + 1 + (openLines [] thenBranch).length + (openElsifLines [] elsifs).length) ifs rest
      stillOpen
  refine ⟨[.conditional { next.node rest with elseBranch := written }], ?_, ?_⟩
  · have lines : openLines [] [.conditional ⟨condition, thenBranch, elsifs, otherwise, line⟩] =
        .ifThen condition :: (openLines [] thenBranch ++ (openElsifLines [] elsifs ++
          ((match otherwise with
            | none => []
            | some statements => .otherwise :: openLines [] statements) ++ [.endIf]))) := by
      cases otherwise <;> simp [openLines, Statement.openLines, Conditional.openLines]
    have opens : Cursor.write ⟨ifs, inner⟩ number (.ifThen condition) =
        some ⟨ifs ++ [opened], []⟩ := rfl
    rw [lines, Cursor.writeFrom, opens, Option.bind_some, Cursor.writeFrom_append wroteThen,
      List.nil_append, Cursor.writeFrom_append wroteElsifs, wroteElse, before]
  · rw [node]
    cases written with
    | none =>
      cases otherwise with
      | none =>
        simp [withoutNumbers, Statement.withoutNumbers, Conditional.withoutNumbers, opened,
          OpenIf.node, sameThen, sameElsifs]
      | some statements => cases sameElse
    | some other =>
      cases otherwise with
      | none => cases sameElse
      | some statements =>
        have sameStatements : withoutNumbers other = withoutNumbers statements := by
          simpa using sameElse
        simp [withoutNumbers, Statement.withoutNumbers, Conditional.withoutNumbers, opened,
          OpenIf.node, sameThen, sameElsifs, sameStatements]

theorem Rewrites.cons {statement : Statement} {rest : List Statement}
    (first : Rewrites [statement]) (others : Rewrites rest) : Rewrites (statement :: rest) := by
  intro number ifs inner
  obtain ⟨one, wroteFirst, sameFirst⟩ := first number ifs inner
  obtain ⟨written, wroteOthers, sameOthers⟩ :=
    others (number + (openLines [] [statement]).length) ifs (inner ++ one)
  refine ⟨one ++ written, ?_, ?_⟩
  · rw [← List.singleton_append, openLines_append, Cursor.writeFrom_append wroteFirst,
      wroteOthers, List.append_assoc]
  · rw [withoutNumbers_append, sameFirst, sameOthers]
    rfl

theorem Rewrites.assignment (target expression : String) (line : Nat) :
    Rewrites [.assignment target expression line] := by
  intro number ifs inner
  refine ⟨[.assignment target expression number], ?_, ?_⟩
  · simp [openLines, Statement.openLines, Cursor.writeFrom, Cursor.write]
  · simp [withoutNumbers, Statement.withoutNumbers]

mutual

theorem Statement.rewrites : (statement : Statement) → Rewrites [statement]
  | .assignment target expression line => .assignment target expression line
  | .conditional node => node.rewrites

theorem Conditional.rewrites : (node : Conditional) → Rewrites [.conditional node]
  | ⟨_, thenBranch, elsifs, none, line⟩ =>
    .conditional (rewrites thenBranch) (elsifs_rewrite elsifs) (by simp) line
  | ⟨_, thenBranch, elsifs, some statements, line⟩ =>
    .conditional (rewrites thenBranch) (elsifs_rewrite elsifs)
      (fun _ same => Option.some.inj same ▸ rewrites statements) line

theorem rewrites : (statements : List Statement) → Rewrites statements
  | [] => fun _ _ inner => ⟨[], by simp [openLines, Cursor.writeFrom], rfl⟩
  | statement :: rest => .cons statement.rewrites (rewrites rest)

theorem elsifs_rewrite :
    (elsifs : List ElsifBranch) → ∀ branch ∈ elsifs, Rewrites branch.statements
  | [] => by simp
  | ⟨condition, statements, line⟩ :: rest => by
    intro branch member
    rcases List.mem_cons.mp member with rfl | member
    · exact rewrites statements
    · exact elsifs_rewrite rest branch member

end

end StructuredText
