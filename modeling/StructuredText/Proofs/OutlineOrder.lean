import StructuredText.Outline
import StructuredText.Proofs.StackedPous

set_option autoImplicit false

namespace StructuredText

section Sorting

variable {α : Type} (key : α → Nat)

def sortedBy (l : List α) : List α :=
  l.mergeSort fun a b => decide (key a ≤ key b)

theorem sortedBy_perm (l : List α) : (sortedBy key l).Perm l :=
  List.mergeSort_perm l _

theorem keys_sortedBy (l : List α) : (sortedBy key l).Pairwise fun a b => key a ≤ key b := by
  have sorted : (sortedBy key l).Pairwise fun a b => decide (key a ≤ key b) = true :=
    List.pairwise_mergeSort (fun a b c => by simpa using Nat.le_trans)
      (fun a b => by simpa using Nat.le_total _ _) l
  simpa using sorted

theorem sublist_sortedBy {l part : List α} (inOrder : part.Pairwise fun a b => key a ≤ key b)
    (isPart : part.Sublist l) : part.Sublist (sortedBy key l) :=
  List.sublist_mergeSort (fun a b c => by simpa using Nat.le_trans)
    (fun a b => by simpa using Nat.le_total _ _) (by simpa using inOrder) isPart

theorem sortedBy_of_pairwise {l : List α} (inOrder : l.Pairwise fun a b => key a ≤ key b) :
    sortedBy key l = l :=
  List.mergeSort_of_pairwise (by simpa using inOrder)

theorem filter_sortedBy (l : List α) (n : Nat) :
    (sortedBy key l).filter (key · = n) = l.filter (key · = n) := by
  have same : (l.filter (key · = n)).Pairwise fun a b => key a ≤ key b := by
    refine List.pairwise_of_forall_mem_list fun a isA b isB => ?_
    simp only [List.mem_filter, decide_eq_true_eq] at isA isB
    omega
  have kept := (sublist_sortedBy key same List.filter_sublist).filter (key · = n)
  simp only [List.filter_filter, Bool.and_self] at kept
  exact (kept.eq_of_length ((sortedBy_perm key l).filter _).length_eq.symm).symm

theorem pairwise_sortedBy {R : α → α → Prop} {l : List α}
    (apart : ∀ a ∈ l, ∀ b ∈ l, key a < key b → R a b)
    (ties : l.Pairwise fun a b => key a = key b → R a b) : (sortedBy key l).Pairwise R := by
  rw [List.pairwise_iff_forall_sublist]
  intro a b inOrder
  have isMember (c : α) (inPair : c ∈ [a, b]) : c ∈ l :=
    (sortedBy_perm key l).mem_iff.mp (inOrder.subset inPair)
  rcases Nat.lt_or_eq_of_le (List.pairwise_iff_forall_sublist.mp (keys_sortedBy key l) inOrder) with
    smaller | same
  · exact apart a (isMember a (by simp)) b (isMember b (by simp)) smaller
  · have kept := inOrder.filter (key · = key b)
    rw [filter_sortedBy] at kept
    have both : [a, b].filter (key · = key b) = [a, b] := by simp [same]
    rw [both] at kept
    exact List.pairwise_iff_forall_sublist.mp ties (kept.trans List.filter_sublist) same

end Sorting

namespace OpenPou

def outlineEntry : OpenPou → OutlineEntry
  | functionBlock block _ => .ofFunctionBlock block
  | program p => .ofProgram p
  | function f => .ofFunction f

def memberEntries : OpenPou → List OutlineEntry
  | functionBlock block _ =>
    block.methods.map OutlineEntry.ofMethod ++ block.properties.map OutlineEntry.ofProperty
  | program _ | function _ => []

def entries (pou : OpenPou) : List OutlineEntry :=
  pou.outlineEntry :: sortedBy OutlineEntry.line pou.memberEntries

variable (pou : OpenPou)

@[simp] theorem line_outlineEntry : pou.outlineEntry.line = pou.pos.line := by
  cases pou <;> rfl

@[simp] theorem depth_outlineEntry : pou.outlineEntry.depth = 0 := by
  cases pou <;> rfl

variable {pou}

theorem depth_memberEntries {entry : OutlineEntry} (member : entry ∈ pou.memberEntries) :
    entry.depth = 1 := by
  cases pou with
  | functionBlock block inner =>
    rcases List.mem_append.mp member with isMethod | isProperty
    · obtain ⟨method, -, rfl⟩ := List.mem_map.mp isMethod
      rfl
    · obtain ⟨property, -, rfl⟩ := List.mem_map.mp isProperty
      rfl
  | program p | function f => cases member

theorem depth_entries_tail :
    ∀ entry ∈ sortedBy OutlineEntry.line pou.memberEntries, entry.depth = 1 :=
  fun _ member => depth_memberEntries ((sortedBy_perm _ _).mem_iff.mp member)

theorem filter_entries_pou : pou.entries.filter (·.depth = 0) = [pou.outlineEntry] := by
  have none : (sortedBy OutlineEntry.line pou.memberEntries).filter (·.depth = 0) = [] := by
    rw [List.filter_eq_nil_iff]
    intro entry member
    simp [depth_entries_tail entry member]
  rw [entries, List.filter_cons_of_pos (by simp), none]

theorem filter_entries_member :
    pou.entries.filter (·.depth = 1) = sortedBy OutlineEntry.line pou.memberEntries := by
  rw [entries, List.filter_cons_of_neg (by simp), List.filter_eq_self]
  intro entry member
  simp [depth_entries_tail entry member]

theorem mark_memberEntries {entry : OutlineEntry} (member : entry ∈ pou.memberEntries) :
    .line entry.line ∈ pou.marks := by
  cases pou with
  | functionBlock block inner =>
    refine List.mem_append_left _ ?_
    rcases List.mem_append.mp member with isMethod | isProperty
    · obtain ⟨method, isMember, rfl⟩ := List.mem_map.mp isMethod
      have named : Mark.line method.pos.line ∈ method.marks := by
        simp [Method.marks, headerMarks, Position.marks]
      simp only [FunctionBlock.marks, List.mem_append, List.mem_flatMap]
      exact .inl (.inl (.inr ⟨method, isMember, named⟩))
    · obtain ⟨property, isMember, rfl⟩ := List.mem_map.mp isProperty
      have named : Mark.line property.pos.line ∈ property.marks := by
        simp [Property.marks, headerMarks, Position.marks]
      simp only [FunctionBlock.marks, List.mem_append, List.mem_flatMap]
      exact .inl (.inr ⟨property, isMember, named⟩)
  | program p | function f => cases member

theorem line_le_of_above {other : OpenPou} (above : pou.Above other) {entry : OutlineEntry}
    (member : entry ∈ pou.entries) : entry.line ≤ other.pos.line := by
  rcases List.mem_cons.mp member with rfl | isMember
  · rw [line_outlineEntry]
    exact above.line_le
  · exact above _ (mark_memberEntries ((sortedBy_perm _ _).mem_iff.mp isMember))

def BelowHeader (pou : OpenPou) : Prop :=
  ∀ entry ∈ pou.memberEntries, pou.pos.line ≤ entry.line

theorem belowHeader_of_inOrder {block : FunctionBlock} (inOrder : block.InOrder) :
    (functionBlock block none).BelowHeader := by
  obtain ⟨-, methods, properties, -⟩ := inOrder
  intro entry member
  rcases List.mem_append.mp member with isMethod | isProperty
  · obtain ⟨method, isMember, rfl⟩ := List.mem_map.mp isMethod
    exact List.rel_of_pairwise_cons methods.lines (List.mem_map_of_mem isMember)
  · obtain ⟨property, isMember, rfl⟩ := List.mem_map.mp isProperty
    exact List.rel_of_pairwise_cons properties.lines (List.mem_map_of_mem isMember)

theorem BelowHeader.line_le (below : pou.BelowHeader) {entry : OutlineEntry}
    (member : entry ∈ pou.entries) : pou.pos.line ≤ entry.line := by
  rcases List.mem_cons.mp member with rfl | isMember
  · rw [line_outlineEntry]
  · exact below entry ((sortedBy_perm _ _).mem_iff.mp isMember)

theorem BelowHeader.pairwise_entries (below : pou.BelowHeader) :
    pou.entries.Pairwise fun a b => a.line ≤ b.line := by
  refine List.pairwise_cons.mpr ⟨fun entry isMember => ?_, keys_sortedBy _ _⟩
  rw [line_outlineEntry]
  exact below.line_le (List.mem_cons_of_mem _ isMember)

def Precedes (pou other : OpenPou) : Prop :=
  ∀ a ∈ pou.entries, ∀ b ∈ other.entries, a.line ≤ b.line

theorem Above.precedes {other : OpenPou} (above : pou.Above other) (below : other.BelowHeader) :
    pou.Precedes other :=
  fun _ isFirst _ isSecond => (line_le_of_above above isFirst).trans (below.line_le isSecond)

theorem precedes_of_line {other : OpenPou}
    (short : ∀ entry ∈ pou.memberEntries, entry.line ≤ pou.pos.line)
    (same : pou.pos.line = other.pos.line) (below : other.BelowHeader) : pou.Precedes other := by
  intro a isFirst b isSecond
  refine le_trans ?_ (below.line_le isSecond)
  rw [← same]
  rcases List.mem_cons.mp isFirst with rfl | isMember
  · rw [line_outlineEntry]
  · exact short a ((sortedBy_perm _ _).mem_iff.mp isMember)

end OpenPou

namespace Document

def allPous (document : Document) : List OpenPou :=
  document.pous .functionBlock ++ (document.pous .program ++ document.pous .function)

structure Outlined (document : Document) (outline : List OutlineEntry) : Prop where
  pous : (outline.filter (·.depth = 0)).Perm (document.allPous.map OpenPou.outlineEntry)
  members : (outline.filter (·.depth = 1)).Perm (document.allPous.flatMap OpenPou.memberEntries)
  depths : ∀ entry ∈ outline, entry.depth = 0 ∨ entry.depth = 1
  together : ∃ groups : List (OpenPou × List OutlineEntry),
    (groups.map Prod.fst).Perm document.allPous ∧
      (∀ group ∈ groups, group.2.Perm group.1.memberEntries) ∧
      outline = groups.flatMap fun group => group.1.outlineEntry :: group.2

def SharesFirstLine (document : Document) : Prop :=
  ∃ block ∈ document.pous .functionBlock,
    (∃ entry ∈ block.memberEntries, block.pos.line < entry.line) ∧
      ∃ other ∈ document.pous .program ++ document.pous .function,
        other.pos.line = block.pos.line

variable (document : Document)

theorem outline_eq :
    document.outline =
      (sortedBy (fun pou => pou.pos.line) document.allPous).flatMap OpenPou.entries := by
  let group (pou : OpenPou) : OutlineGroup :=
    { head := pou.outlineEntry, members := sortedBy OutlineEntry.line pou.memberEntries }
  have alone (pou : OpenPou) (noMember : pou.memberEntries = []) :
      group pou = { head := pou.outlineEntry } := by
    simp [group, noMember, sortedBy]
  have groups : document.functionBlocks.map OutlineGroup.ofFunctionBlock ++
      document.programs.map (fun program => { head := .ofProgram program }) ++
      document.functions.map (fun function => { head := .ofFunction function }) =
        document.allPous.map group := by
    simp only [allPous, pous, List.map_append, List.map_map, List.append_assoc]
    congr 2
    · exact List.map_congr_left fun program _ => (alone (.program program) rfl).symm
    · exact List.map_congr_left fun function _ => (alone (.function function) rfl).symm
  have sorted : (document.allPous.map group).mergeSort
      (fun a b => decide (a.head.line ≤ b.head.line)) =
        (sortedBy (fun pou => pou.pos.line) document.allPous).map group :=
    (List.map_mergeSort fun pou _ other _ => by simp [group]).symm
  rw [outline, groups, sorted, List.flatMap_map]
  rfl

theorem outline_of_sorted
    (pous : document.allPous.Pairwise fun a b => a.pos.line ≤ b.pos.line)
    (members : ∀ pou ∈ document.allPous, pou.memberEntries.Pairwise fun a b => a.line ≤ b.line) :
    document.outline =
      document.allPous.flatMap fun pou => pou.outlineEntry :: pou.memberEntries := by
  rw [outline_eq, sortedBy_of_pairwise _ pous]
  refine List.flatMap_congr fun pou member => ?_
  rw [OpenPou.entries, sortedBy_of_pairwise _ (members pou member)]

theorem outlined : document.Outlined document.outline := by
  rw [outline_eq]
  have sorted := sortedBy_perm (fun pou => pou.pos.line) document.allPous
  generalize sortedBy (fun pou => pou.pos.line) document.allPous = order at sorted
  constructor
  · simp only [List.filter_flatMap, OpenPou.filter_entries_pou]
    rw [← List.map_eq_flatMap]
    exact sorted.map OpenPou.outlineEntry
  · simp only [List.filter_flatMap, OpenPou.filter_entries_member]
    exact sorted.flatMap fun pou _ => sortedBy_perm OutlineEntry.line pou.memberEntries
  · intro entry member
    obtain ⟨pou, -, inside⟩ := List.mem_flatMap.mp member
    rcases List.mem_cons.mp inside with rfl | isMember
    · exact .inl pou.depth_outlineEntry
    · exact .inr (OpenPou.depth_memberEntries ((sortedBy_perm _ _).mem_iff.mp isMember))
  · refine ⟨order.map fun pou => (pou, sortedBy OutlineEntry.line pou.memberEntries), ?_, ?_, ?_⟩
    · simpa [Function.comp_def] using sorted
    · intro group member
      obtain ⟨pou, -, rfl⟩ := List.mem_map.mp member
      exact sortedBy_perm OutlineEntry.line pou.memberEntries
    · rw [List.flatMap_map]
      rfl

variable {document}

theorem mem_allPous {pou : OpenPou} :
    pou ∈ document.allPous ↔ ∃ kind, pou ∈ document.pous kind := by
  simp only [allPous, List.mem_append]
  constructor
  · rintro (isBlock | isProgram | isFunction)
    exacts [⟨_, isBlock⟩, ⟨_, isProgram⟩, ⟨_, isFunction⟩]
  · rintro ⟨kind, member⟩
    cases kind with
    | functionBlock => exact .inl member
    | program => exact .inr (.inl member)
    | function => exact .inr (.inr member)

theorem memberEntries_eq_nil {pou : OpenPou}
    (member : pou ∈ document.pous .program ++ document.pous .function) :
    pou.memberEntries = [] := by
  rcases List.mem_append.mp member with isProgram | isFunction
  · obtain ⟨program, -, rfl⟩ := List.mem_map.mp isProgram
    rfl
  · obtain ⟨function, -, rfl⟩ := List.mem_map.mp isFunction
    rfl

theorem belowHeader_of_mem (inOrder : document.InOrder) {pou : OpenPou}
    (member : pou ∈ document.allPous) : pou.BelowHeader := by
  rcases List.mem_append.mp member with isBlock | other
  · obtain ⟨block, isMember, rfl⟩ := List.mem_map.mp isBlock
    exact OpenPou.belowHeader_of_inOrder (inOrder.functionBlocks.each block isMember)
  · intro entry isMember
    rw [memberEntries_eq_nil other] at isMember
    cases isMember

variable (inOrder : document.InOrder) (stacked : document.Stacked)

include inOrder stacked

theorem pairwise_precedes (alone : ¬ document.SharesFirstLine) :
    (sortedBy (fun pou => pou.pos.line) document.allPous).Pairwise OpenPou.Precedes := by
  have below {pou : OpenPou} (member : pou ∈ document.allPous) : pou.BelowHeader :=
    belowHeader_of_mem inOrder member
  apply pairwise_sortedBy
  · intro pou isFirst other isSecond earlier
    obtain ⟨one, inOne⟩ := mem_allPous.mp isFirst
    obtain ⟨two, inTwo⟩ := mem_allPous.mp isSecond
    exact (stacked.all one two pou inOne other inTwo earlier).precedes (below isSecond)
  · have behind {pou : OpenPou}
        (member : pou ∈ document.pous .program ++ document.pous .function) : pou.BelowHeader :=
      below (List.mem_append_right _ member)
    rw [allPous, List.pairwise_append]
    refine ⟨?_, ?_, ?_⟩
    · refine (stacked.each .functionBlock).imp_of_mem fun _ isSecond above _ => ?_
      exact above.precedes (below (List.mem_append_left _ isSecond))
    · refine List.pairwise_of_forall_mem_list fun pou isFirst other isSecond same => ?_
      refine OpenPou.precedes_of_line (fun entry member => ?_) same (behind isSecond)
      rw [memberEntries_eq_nil isFirst] at member
      cases member
    · intro block isBlock other isOther same
      refine OpenPou.precedes_of_line (fun entry member => ?_) same (behind isOther)
      by_contra later
      exact alone ⟨block, isBlock, ⟨entry, member, by omega⟩, other, isOther, same.symm⟩

omit inOrder stacked in
theorem not_sharesFirstLine
    (ordered : (sortedBy (fun pou => pou.pos.line) document.allPous).Pairwise OpenPou.Precedes) :
    ¬ document.SharesFirstLine := by
  rintro ⟨block, isBlock, ⟨entry, isMember, later⟩, other, isOther, same⟩
  have inOrder : [block, other].Pairwise fun a b => a.pos.line ≤ b.pos.line := by simp [same]
  have isPart : [block, other].Sublist document.allPous :=
    (List.singleton_sublist.mpr isBlock).append (List.singleton_sublist.mpr isOther)
  have precedes := List.pairwise_iff_forall_sublist.mp ordered
    (sublist_sortedBy (fun pou => pou.pos.line) inOrder isPart)
  have listed : entry ∈ block.entries :=
    List.mem_cons_of_mem _ ((sortedBy_perm _ _).mem_iff.mpr isMember)
  have notLater := precedes entry listed other.outlineEntry List.mem_cons_self
  rw [other.line_outlineEntry] at notLater
  omega

theorem lines_outline_iff :
    (document.outline.map OutlineEntry.line).Pairwise (· ≤ ·) ↔ ¬ document.SharesFirstLine := by
  rw [outline_eq, List.pairwise_map, List.pairwise_flatMap]
  refine ⟨fun ordered => not_sharesFirstLine ordered.2,
    fun alone => ⟨fun pou member => ?_, pairwise_precedes inOrder stacked alone⟩⟩
  exact (belowHeader_of_mem inOrder ((sortedBy_perm _ _).mem_iff.mp member)).pairwise_entries

end Document

theorem outline_parse (source : String) :
    (parse source).Outlined (parse source).outline ∧
      (((parse source).outline.map OutlineEntry.line).Pairwise (· ≤ ·) ↔
        ¬ (parse source).SharesFirstLine) :=
  ⟨(parse source).outlined,
    Document.lines_outline_iff (inOrder_parse source) (stacked_parse source)⟩

def sharedLine : String :=
  "PROGRAM P END_PROGRAM FUNCTION_BLOCK F\nMETHOD M\nEND_METHOD\nEND_FUNCTION_BLOCK\n"

theorem outline_parse_sharedLine :
    (parse sharedLine).diagnostics = [] ∧
      (parse sharedLine).outline.map (fun entry => (entry.name, entry.line)) =
        [("F", 1), ("M", 2), ("P", 1)] ∧
      ¬ ((parse sharedLine).outline.map OutlineEntry.line).Pairwise (· ≤ ·) := by
  have read : (parse sharedLine).diagnostics = [] ∧
      (parse sharedLine).allPous.Pairwise (fun a b => a.pos.line ≤ b.pos.line) ∧
      (∀ pou ∈ (parse sharedLine).allPous,
        pou.memberEntries.Pairwise fun a b => a.line ≤ b.line) ∧
      ((parse sharedLine).allPous.flatMap fun pou => pou.outlineEntry :: pou.memberEntries) =
        [⟨.functionBlock, "F", none, 1, 0⟩, ⟨.method, "M", some "()", 2, 1⟩,
          ⟨.program, "P", none, 1, 0⟩] := by
    decide +kernel
  obtain ⟨clean, pous, members, entries⟩ := read
  rw [Document.outline_of_sorted _ pous members, entries]
  exact ⟨clean, rfl, by decide⟩

end StructuredText
