import StructuredText.Proofs.Builder
import StructuredText.Proofs.NoBoundary
import StructuredText.Proofs.PlainCode

set_option autoImplicit false

namespace StructuredText

open Reader

section Absent

theorem cut_of_mem {keyword : String} (member : keyword ∈ boundaryKeywords) :
    Cut.ofWord? keyword.toList ≠ none := by
  have among {keywords : List String} (member : keyword ∈ keywords) :
      (keywords.any fun other => other.toList == keyword.toList) = true :=
    List.any_eq_true.mpr ⟨keyword, member, beq_self_eq_true _⟩
  intro uncut
  simp only [Cut.ofWord?] at uncut
  split at uncut
  · cases uncut
  rename_i notHeader
  split at uncut
  · cases uncut
  split at uncut
  · cases uncut
  split at uncut
  · cases uncut
  rename_i notClosing
  split at uncut
  · cases uncut
  rename_i notSection
  simp only [boundaryKeywords, List.mem_append] at member
  rcases member with (header | closing) | inSection
  · simp [among header] at notHeader
  · simp [among closing] at notClosing
  · exact notSection (among inSection)

theorem absent_of_uncut {s : List Char} (words : ∀ word ∈ asciiWords s, Cut.ofWord? word = none) :
    ∀ keyword ∈ boundaryKeywords, keyword.toList ∉ asciiWords s := by
  intro keyword member found
  exact cut_of_mem member (words keyword.toList found)

theorem absent_word {keyword : String} (other : keyword ∉ boundaryKeywords) :
    ∀ boundary ∈ boundaryKeywords, boundary.toList ≠ keyword.toList := by
  intro boundary member same
  rw [String.toList_inj.mp same] at member
  exact other member

theorem unbegun_append {first rest : List Char}
    (absent : ∀ keyword ∈ boundaryKeywords, keyword.toList ∉ asciiWords first)
    (apart : ∀ d ∈ rest.head?, isNameChar d = false) :
    ∀ keyword ∈ boundaryKeywords, ¬ BeginsWith keyword.toList (first ++ rest) := by
  intro keyword member begins
  obtain ⟨nonempty, isName⟩ := isWord_of_mem member
  exact absent keyword member ((begins.of_append isName apart).mem_asciiWords isName nonempty)

theorem Boundary.read?_of_keyword {keyword : String} (nonempty : keyword.toList ≠ [])
    (isName : ∀ c ∈ keyword.toList, isNameChar c = true) (other : keyword ∉ boundaryKeywords)
    {rest : List Char} (apart : ∀ d ∈ rest.head?, isNameChar d = false) :
    read? (keyword.toList ++ rest) = none := by
  refine read?_of_unbegun (unbegun_append (fun boundary member found => ?_) apart)
  rw [asciiWords_of_name nonempty isName, List.mem_singleton] at found
  exact absent_word other boundary member found

theorem CodeLine.boundary_text {code : CodeLine} (inline : code.IsInline) :
    Boundary.read? code.text.toList = none := by
  have space (rest : List Char) : ∀ d ∈ (' ' :: rest).head?, isNameChar d = false := by
    simp
    decide
  cases code with
  | assignment target expression =>
    rw [toList_assignment, assignmentLine]
    exact Boundary.read?_of_unbegun (unbegun_append (absent_of_uncut inline.1.words) (space _))
  | ifThen condition =>
    rw [toList_ifThen, conditionLine]
    exact Boundary.read?_of_keyword (by decide) isName_if (by decide) (space _)
  | elsif condition =>
    rw [toList_elsif, conditionLine]
    exact Boundary.read?_of_keyword (by decide) isName_elsif (by decide) (space _)
  | otherwise => decide
  | endIf => decide

end Absent

theorem isKeyword_of_space {keyword : String} {s : List Char} (space : ' ' ∈ s)
    (single : ' ' ∉ keyword.toList) : isKeyword keyword s = false := by
  by_contra isKeyword
  have same : s.map foldCase = keyword.toList := by
    simpa [StructuredText.isKeyword] using isKeyword
  apply single
  rw [← same]
  exact List.mem_map.mpr ⟨' ', space, by decide⟩

theorem afterKeyword?_append {keyword : String} (folds : isKeyword keyword keyword.toList = true)
    (s : List Char) : afterKeyword? keyword (keyword.toList ++ s) = some s := by
  simp [afterKeyword?, folds]

theorem beforeKeyword?_append {keyword : String} (folds : isKeyword keyword keyword.toList = true)
    (s : List Char) : beforeKeyword? keyword (s ++ keyword.toList) = some s := by
  simp [beforeKeyword?, folds]

theorem isWordChar_space : isWordChar ' ' = false := by
  decide +kernel

theorem isKeyword_then : isKeyword "THEN" "THEN".toList = true := by
  decide

theorem condition?_eq_some {keyword : String} {s rest condition : List Char} {first last : Char}
    (after : afterKeyword? keyword s = some rest)
    (before : beforeKeyword? "THEN" rest = some condition) (isFirst : condition.head? = some first)
    (isLast : condition.getLast? = some last) (firstEnds : isWordChar first = false)
    (lastEnds : isWordChar last = false) :
    ConditionalWord.condition? keyword s = some (String.ofList (trim condition)) := by
  simp [ConditionalWord.condition?, after, before, isFirst, isLast, firstEnds, lastEnds]

theorem condition?_conditionLine {keyword : String}
    (folds : isKeyword keyword keyword.toList = true) {condition : List Char}
    (trimmed : trim condition = condition) :
    ConditionalWord.condition? keyword (conditionLine keyword.toList condition) =
      some (String.ofList condition) := by
  have between : ' ' :: (condition ++ ' ' :: "THEN".toList) =
      (' ' :: (condition ++ [' '])) ++ "THEN".toList := by simp
  have inner : trim (' ' :: (condition ++ [' '])) = condition := by
    rw [← List.singleton_append, trim_blank_append isBlank_of_mem_space,
      trim_append_blank isBlank_of_mem_space, trimmed]
  have last : (' ' :: (condition ++ [' '])).getLast? = some ' ' := by
    rw [← List.cons_append, List.getLast?_concat]
  have before : beforeKeyword? "THEN" (' ' :: (condition ++ ' ' :: "THEN".toList)) =
      some (' ' :: (condition ++ [' '])) := by
    rw [between]
    exact beforeKeyword?_append isKeyword_then _
  rw [conditionLine, condition?_eq_some (afterKeyword?_append folds _) before rfl last
    isWordChar_space isWordChar_space, inner]

theorem afterKeyword?_of_head {keyword : String} {c : Char}
    (differs : keyword.toList.head?.any (· != foldCase c) = true) (s : List Char) :
    afterKeyword? keyword (c :: s) = none := by
  obtain ⟨first, starts, other⟩ := (Option.any_eq_true _ _).mp differs
  obtain ⟨rest, shape⟩ := List.head?_eq_some_iff.mp starts
  rw [afterKeyword?, if_neg]
  simp only [isKeyword, shape, List.length_cons, List.take_succ_cons, List.map_cons, beq_iff_eq]
  intro same
  exact bne_iff_ne.mp other (List.cons.inj same).1.symm

theorem withoutTerminator_of_last {s : List Char} {c : Char} (last : s.getLast? = some c)
    (plain : c ≠ ';' ∧ isBlank c = false) : withoutTerminator s = s := by
  have notSemicolon : s.getLast? ≠ some ';' := by simpa [last] using plain.1
  rw [withoutTerminator, if_neg notSemicolon]
  apply trimEnd_of_last
  simpa [last] using plain.2

theorem withoutTerminator_concat {s : List Char} (last : ∀ c ∈ s.getLast?, isBlank c = false) :
    withoutTerminator (s ++ [';']) = s := by
  simp [withoutTerminator, trimEnd_of_last last]

theorem BlockWord.read?_of_space {s : List Char} (space : ' ' ∈ withoutTerminator s)
    (noBlock : ∀ keyword ∈ keywords, startsWithWord keyword s = false) : read? s = none := by
  have notOpening : (keywords.any fun keyword => startsWithWord keyword s) = false := by
    simpa using noBlock
  have notClosing : (keywords.any fun keyword =>
      isKeyword ("END_" ++ keyword) (withoutTerminator s)) = false := by
    have oneWord : ∀ keyword ∈ keywords, ' ' ∉ ("END_" ++ keyword).toList := by decide
    simpa using fun keyword member => isKeyword_of_space space (oneWord keyword member)
  rw [read?, notOpening, notClosing]
  rfl

theorem BlockWord.read?_conditionLine {keyword condition : List Char} {c : Char}
    (starts : keyword.head? = some c)
    (other : ∀ block ∈ keywords, block.toList.head?.any (· != foldCase c) = true) :
    read? (conditionLine keyword condition) = none := by
  obtain ⟨rest, rfl⟩ := List.head?_eq_some_iff.mp starts
  apply read?_of_space
  · rw [withoutTerminator_of_last (last_conditionLine _ _) (by decide)]
    simp [conditionLine]
  · intro block member
    rw [startsWithWord, conditionLine, List.cons_append, afterKeyword?_of_head (other block member)]
    rfl

theorem ConditionalWord.read?_ifThen {condition : String}
    (trimmed : trim condition.toList = condition.toList) :
    read? (CodeLine.ifThen condition).text.toList = some (.ifThen condition) := by
  rw [CodeLine.toList_ifThen, read?, condition?_conditionLine (by decide) trimmed,
    String.ofList_toList]
  rfl

theorem ConditionalWord.read?_elsif {condition : String}
    (trimmed : trim condition.toList = condition.toList) :
    read? (CodeLine.elsif condition).text.toList = some (.elsif condition) := by
  have shape : conditionLine "ELSIF".toList condition.toList =
      'E' :: ("LSIF".toList ++ ' ' :: (condition.toList ++ ' ' :: "THEN".toList)) := by
    simp [conditionLine]
  have notIf : condition? "IF" (conditionLine "ELSIF".toList condition.toList) = none := by
    rw [condition?, shape, afterKeyword?_of_head (by decide)]
    rfl
  rw [CodeLine.toList_elsif, read?, notIf, condition?_conditionLine (by decide) trimmed,
    String.ofList_toList]
  rfl

-- What is read at the start of a text is read there whatever follows it.
section Following

variable {u : List Char} (apart : ∀ d ∈ u.head?, isNameChar d = false)

include apart

theorem Reader.name_append {s rest : List Char} (read : name s = some rest) :
    name (s ++ u) = some (rest ++ u) := by
  cases s with
  | nil => cases read
  | cons c s =>
    simp only [name, Option.ite_none_right_eq_some, Option.some.injEq] at read
    obtain ⟨isStart, rfl⟩ := read
    simp [name, isStart, (span_append apart).2]

omit apart in
theorem trimStart_append {s : List Char} (begins : trimStart s ≠ []) :
    trimStart (s ++ u) = trimStart s ++ u := by
  rw [trimStart, List.dropWhile_append, if_neg]
  · rfl
  · simpa [trimStart] using begins

omit apart in
theorem splitAtChar_append {close : Char} {s before after : List Char}
    (split : splitAtChar close s = some (before, after)) :
    splitAtChar close (s ++ u) = some (before, after ++ u) := by
  induction s generalizing before with
  | nil => cases split
  | cons c s ih =>
    rw [splitAtChar] at split
    by_cases closes : c = close
    · simp only [closes, if_true, Option.some.injEq, Prod.mk.injEq] at split
      simp [splitAtChar, closes, split]
    · simp only [closes, if_false, Option.map_eq_some_iff] at split
      obtain ⟨⟨start, rest⟩, found, same⟩ := split
      obtain ⟨rfl, rfl⟩ := Prod.mk.inj same
      simp [splitAtChar, closes, ih found]

theorem Assignment.access_append {s rest : List Char} (read : access s = some rest) :
    access (s ++ u) = some (rest ++ u) := by
  unfold access at read
  split at read
  · rename_i field shape
    have begins : trimStart field ≠ [] := by
      intro blank
      rw [blank] at read
      cases read
    have joined : trimStart (s ++ u) = '.' :: (field ++ u) := by
      rw [trimStart_append (by simp [shape]), shape]
      rfl
    simp only [access, joined]
    rw [trimStart_append begins]
    exact name_append apart read
  · cases bracket : trimStart s with
    | nil =>
      rw [bracket] at read
      cases read
    | cons c index =>
      simp only [bracket, bracketed, Option.ite_none_right_eq_some, Option.map_eq_some_iff] at read
      obtain ⟨rfl, ⟨inner, _⟩, split, rfl⟩ := read
      have joined : trimStart (s ++ u) = '[' :: (index ++ u) := by
        rw [trimStart_append (by simp [bracket]), bracket]
        rfl
      simp [access, joined, bracketed, splitAtChar_append split]

theorem Assignment.afterAccesses_append {s : List Char} (stops : access u = none)
    (read : afterAccesses s = []) : afterAccesses (s ++ u) = u := by
  fun_induction afterAccesses s with
  | case1 s rest more ih =>
    rw [afterAccesses_of_some (access_append apart more)]
    exact ih read
  | case2 s none =>
    rw [read]
    exact afterAccesses_of_none stops

end Following

theorem Assignment.read?_assignmentLine {target expression : List Char}
    (isTarget : (Reader.name target).map afterAccesses = some [])
    (trimmed : trim expression = expression) (oneLine : '\n' ∉ expression) :
    read? (assignmentLine target expression) = some ⟨target, expression, true⟩ := by
  let value := ' ' :: (expression ++ [';'])
  let sign := ' ' :: ':' :: '=' :: value
  have blank : isBlank ' ' = true := by decide
  have afterSpace : trimStart sign = ':' :: '=' :: value := by
    simp [sign, trimStart, blank, show isBlank ':' = false by decide]
  have stops : access sign = none := by
    simp [access, afterSpace, bracketed]
  have apart : ∀ d ∈ sign.head?, isNameChar d = false := by
    simp [sign]
    decide
  obtain ⟨rest, begins, ends⟩ := Option.map_eq_some_iff.mp isTarget
  have name : Reader.name (target ++ sign) = some (rest ++ sign) := name_append apart begins
  have accesses : afterAccesses (rest ++ sign) = sign := afterAccesses_append apart stops ends
  have assigns : literal ":=" (':' :: '=' :: value) = some value := by
    simp [literal]
  have body : trimStart value = expression ++ [';'] := by
    rw [show value = [' '] ++ (expression ++ [';']) from rfl,
      trimStart_blank_append isBlank_of_mem_space]
    apply trimStart_of_head
    cases expression with
    | nil => simp [show isBlank ';' = false by decide]
    | cons c rest => simpa using head_of_trimStart (trimStart_of_trim trimmed)
  have taken : consumed (target ++ sign) sign = target := by
    simp [consumed]
  rw [show assignmentLine target expression = target ++ sign from rfl, read?]
  simp [name, accesses, afterSpace, assigns, body, trimEnd_of_trim trimmed, oneLine, taken]

theorem startsWithWord_space_append {keyword : String} (single : ' ' ∉ keyword.toList)
    {s : List Char} (other : startsWithWord keyword s = false) (t : List Char) :
    startsWithWord keyword (s ++ ' ' :: t) = false := by
  simp only [startsWithWord, afterKeyword?] at other ⊢
  by_cases short : s.length < keyword.toList.length
  · have reaches : ' ' ∈ (s ++ ' ' :: t).take keyword.toList.length := by
      obtain ⟨more, count⟩ := Nat.exists_eq_add_of_lt short
      rw [count, Nat.add_assoc, List.take_length_add_append]
      simp
    rw [isKeyword_of_space reaches single]
    rfl
  · have inside : keyword.toList.length ≤ s.length := Nat.le_of_not_lt short
    rw [List.take_append_of_le_length inside, List.drop_append_of_le_length inside]
    cases begins : isKeyword keyword (s.take keyword.toList.length) with
    | false => rfl
    | true =>
      cases after : s.drop keyword.toList.length with
      | nil => simp [begins, after] at other
      | cons d rest =>
        rw [begins, after] at other
        exact other

theorem beforeKeyword?_of_last {s : List Char} (last : ∀ c ∈ s.getLast?, c = ';') :
    beforeKeyword? "THEN" s = none := by
  rw [beforeKeyword?, if_neg]
  intro isThen
  have same : (s.drop (s.length - "THEN".toList.length)).map foldCase = "THEN".toList := by
    simpa [isKeyword] using isThen
  have ending := congrArg List.getLast? same
  rw [List.getLast?_map, show "THEN".toList.getLast? = some 'N' by decide,
    Option.map_eq_some_iff] at ending
  obtain ⟨c, isLast, folds⟩ := ending
  rw [List.getLast?_drop] at isLast
  split at isLast
  · cases isLast
  · rw [last c isLast] at folds
    exact absurd folds (by decide)

theorem withoutTerminator_assignmentLine (target : List Char) {expression : List Char}
    (inline : InlineText expression) :
    withoutTerminator (assignmentLine target expression) =
      target ++ ' ' :: ':' :: '=' :: ' ' :: expression := by
  rw [assignmentLine_eq]
  apply withoutTerminator_concat
  have shape : target ++ ' ' :: ':' :: '=' :: ' ' :: expression =
      (target ++ [' ', ':', '=', ' ']) ++ expression := by simp
  rw [shape, List.getLast?_append_of_ne_nil _ inline.nonempty]
  exact last_of_trim inline.trimmed

theorem ConditionalWord.read?_assignmentLine (target : List Char) {expression : List Char}
    (inline : InlineText expression) : read? (assignmentLine target expression) = none := by
  have condition (keyword : String) :
      condition? keyword (assignmentLine target expression) = none := by
    cases after : afterKeyword? keyword (assignmentLine target expression) with
    | none => simp [condition?, after]
    | some rest =>
      have last : ∀ c ∈ rest.getLast?, c = ';' := by
        simp only [afterKeyword?, Option.ite_none_right_eq_some, Option.some.injEq] at after
        intro c isLast
        rw [← after.2, List.getLast?_drop, assignmentLine_eq, List.getLast?_concat] at isLast
        split at isLast
        · cases isLast
        · exact (Option.some.inj isLast).symm
      simp [condition?, after, beforeKeyword?_of_last last]
  have space : ' ' ∈ withoutTerminator (assignmentLine target expression) := by
    simp [withoutTerminator_assignmentLine target inline]
  have notElse : isKeyword "ELSE" (assignmentLine target expression) = false :=
    isKeyword_of_space (by simp [assignmentLine]) (by decide)
  have notEndIf :
      isKeyword "END_IF" (withoutTerminator (assignmentLine target expression)) = false :=
    isKeyword_of_space space (by decide)
  simp [read?, condition, notElse, notEndIf]

theorem BlockWord.read?_assignmentLine {target expression : List Char}
    (isTarget : PlainTarget target) (inline : InlineText expression) :
    read? (assignmentLine target expression) = none := by
  apply read?_of_space
  · simp [withoutTerminator_assignmentLine target inline]
  · intro keyword member
    have single : ∀ keyword ∈ keywords, ' ' ∉ keyword.toList := by decide
    exact startsWithWord_space_append (single keyword member) (isTarget.notBlock keyword member) _

theorem Accessor.read?_of_mem {s : List Char} {c : Char} (member : c ∈ s)
    (visible : c ≠ ';' ∧ isBlank c = false)
    (other : ∀ accessor ∈ [get, set], c ∉ accessor.keyword.toList) : read? s = none := by
  have kept : c ∈ (s.reverse.dropWhile (· == ';')).reverse := by
    have parts := List.takeWhile_append_dropWhile (p := (· == ';')) (l := s.reverse)
    rw [← List.mem_reverse, ← parts] at member
    rcases List.mem_append.mp member with semicolon | behind
    · have isSemicolon := List.all_eq_true.mp List.all_takeWhile c semicolon
      exact absurd (beq_iff_eq.mp isSemicolon) visible.1
    · exact List.mem_reverse.mpr behind
  obtain ⟨blanks, split, areBlank⟩ := trimEnd_append (s.reverse.dropWhile (· == ';')).reverse
  rw [split] at kept
  have inWord := (List.mem_append.mp kept).resolve_right fun blank => by
    rw [areBlank c blank] at visible
    cases visible.2
  simp only [read?, List.find?_eq_none]
  intro accessor isAccessor same
  rw [← beq_iff_eq.mp same] at inWord
  exact other accessor isAccessor inWord

theorem Accessor.read?_conditionLine (keyword condition : List Char) :
    read? (conditionLine keyword condition) = none :=
  read?_of_mem (c := 'H') (by simp [conditionLine]) (by decide) (by decide)

namespace CodeLine

variable {code : CodeLine}

theorem block_text (inline : code.IsInline) : BlockWord.read? code.text.toList = none := by
  cases code with
  | assignment target expression =>
    rw [toList_assignment]
    exact BlockWord.read?_assignmentLine inline.1 inline.2
  | ifThen condition =>
    rw [toList_ifThen]
    exact BlockWord.read?_conditionLine rfl (by decide)
  | elsif condition =>
    rw [toList_elsif]
    exact BlockWord.read?_conditionLine rfl (by decide)
  | otherwise => decide +kernel
  | endIf => decide +kernel

theorem accessor_text (code : CodeLine) : Accessor.read? code.text.toList = none := by
  cases code with
  | assignment target expression =>
    rw [toList_assignment]
    exact Accessor.read?_of_mem (c := ':') (by simp [assignmentLine]) (by decide) (by decide)
  | ifThen condition =>
    rw [toList_ifThen]
    exact Accessor.read?_conditionLine _ _
  | elsif condition =>
    rw [toList_elsif]
    exact Accessor.read?_conditionLine _ _
  | otherwise => decide
  | endIf => decide

theorem read_text (inline : code.IsInline) :
    (∃ word, ConditionalWord.read? code.text.toList = some word ∧ word.codeLine = code ∧
        word.missing? = none) ∨
      ConditionalWord.read? code.text.toList = none ∧
        ∃ assignment, Assignment.read? code.text.toList = some assignment ∧
          assignment.codeLine = code ∧ assignment.terminated = true := by
  have given {keyword condition : String} (inline : InlineText condition.toList) :
      Builder.missingCondition? keyword condition = none := by
    have nonempty : condition ≠ "" := by
      rintro rfl
      exact inline.nonempty rfl
    simp [Builder.missingCondition?, nonempty]
  cases code with
  | assignment target expression =>
    rw [toList_assignment]
    refine .inr ⟨ConditionalWord.read?_assignmentLine _ inline.2, _,
      Assignment.read?_assignmentLine inline.1.isTarget inline.2.trimmed inline.2.oneLine, ?_, rfl⟩
    simp [Assignment.codeLine]
  | ifThen condition =>
    exact .inl ⟨.ifThen condition, ConditionalWord.read?_ifThen inline.trimmed, rfl, given inline⟩
  | elsif condition =>
    exact .inl ⟨.elsif condition, ConditionalWord.read?_elsif inline.trimmed, rfl, given inline⟩
  | otherwise => exact .inl ⟨.otherwise, by decide, rfl, rfl⟩
  | endIf => exact .inl ⟨.endIf, by decide, rfl, rfl⟩

end CodeLine

theorem Builder.Tracks.feed_inline {builder : Builder} {root : List Statement}
    {cursor after : Cursor} {code : CodeLine} {pos : Position}
    (tracks : builder.Tracks root cursor) (idle : builder.pending = none)
    (noBlock : builder.blocks = []) (inline : code.IsInline)
    (written : cursor.write pos.line code = some after) :
    ∃ next, builder.feed root code.text.toList pos = ⟨next, after.root, .ok .statement, []⟩ ∧
      next.Tracks after.root after ∧ next.pending = none ∧ next.blocks = [] := by
  simp only [feed, idle, build, CodeLine.block_text inline, Bool.false_eq_true, if_false]
  rcases CodeLine.read_text inline with
    ⟨word, read, rfl, complete⟩ | ⟨noWord, assignment, read, rfl, ends⟩
  · obtain ⟨next, result, follows, pending, blocks⟩ := tracks.conditional_written written
    have notBlock : builder.belongsToBlock word = false := by
      cases word <;> simp [belongsToBlock, noBlock]
    rw [noBlock, List.sublist_nil] at blocks
    refine ⟨next, ?_, follows, pending.trans idle, blocks⟩
    simp [read, notBlock, result, complete]
  · cases written
    refine ⟨builder, ?_, ⟨rfl, tracks.frames⟩, idle, noBlock⟩
    simp [noWord, read, assign, ends, tracks.append_eq, Cursor.root]

end StructuredText
