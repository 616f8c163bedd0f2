import StructuredText.Proofs.BracketedTypes

set_option autoImplicit false

namespace StructuredText

open Reader

section Visible

def visible (s : List Char) : List Char :=
  s.filter (!isBlank ·)

variable {s : List Char}

theorem visible_append (s t : List Char) : visible (s ++ t) = visible s ++ visible t :=
  List.filter_append s t

theorem visible_cons {c : Char} (notBlank : isBlank c = false) (s : List Char) :
    visible (c :: s) = c :: visible s := by
  simp [visible, notBlank]

theorem visible_eq_nil_iff : visible s = [] ↔ ∀ c ∈ s, isBlank c = true := by
  simp [visible]

theorem visible_space (s : List Char) : visible (' ' :: s) = visible s := by
  rw [← List.singleton_append, visible_append, visible_eq_nil_iff.mpr isBlank_of_mem_space,
    List.nil_append]

theorem visible_trimStart (s : List Char) : visible (trimStart s) = visible s := by
  have leading : visible (s.takeWhile isBlank) = [] :=
    visible_eq_nil_iff.mpr (List.all_eq_true.mp List.all_takeWhile)
  have parts : s = s.takeWhile isBlank ++ trimStart s := List.takeWhile_append_dropWhile.symm
  nth_rewrite 2 [parts]
  rw [visible_append, leading, List.nil_append]

theorem visible_trimEnd (s : List Char) : visible (trimEnd s) = visible s := by
  obtain ⟨blank, parts, areBlank⟩ := trimEnd_append s
  nth_rewrite 2 [parts]
  rw [visible_append, visible_eq_nil_iff.mpr areBlank, List.append_nil]

theorem visible_trim (s : List Char) : visible (trim s) = visible s := by
  rw [trim, visible_trimEnd, visible_trimStart]

theorem visible_eq_words (s : List Char) : visible s = (words s).flatten := by
  rw [words, List.flatten_filter_not_isEmpty]
  induction s with
  | nil => rfl
  | cons c s ih =>
    rw [splitWhere]
    split
    · rename_i blank
      rw [List.flatten_cons, List.nil_append, ← ih]
      simp [visible, blank]
    · rename_i notBlank
      obtain ⟨piece, pieces, shape⟩ := List.exists_cons_of_ne_nil (splitWhere_ne_nil isBlank s)
      rw [shape, List.flatten_cons] at ih
      rw [visible_cons (by simpa using notBlank), ih, shape]
      rfl

theorem visible_squash (s : List Char) : visible (squash s) = visible s := by
  rw [visible_eq_words, words_squash, ← visible_eq_words]

end Visible

namespace Parameter

section Depth

variable {start : Int} {s t : List Char}

theorem commasInside_append :
    CommasInside start (s ++ t) ↔ CommasInside start s ∧ CommasInside (start + depth s) t := by
  induction s generalizing start with
  | nil => simp [commasInside_nil, depth]
  | cons c s ih =>
    rw [List.cons_append, commasInside_cons, commasInside_cons, ih, depth_cons, Int.add_assoc,
      and_assoc]

theorem commasInside_of_absent (absent : ',' ∉ s) : CommasInside start s := by
  rintro before after rfl
  exact absurd (by simp) absent

theorem depth_of_plain (plain : ∀ c ∈ s, nesting c = 0) : depth s = 0 := by
  induction s with
  | nil => rfl
  | cons c s ih =>
    rw [depth_cons, plain c List.mem_cons_self,
      ih fun d member => plain d (List.mem_cons_of_mem c member), Int.zero_add]

theorem nesting_of_name {c : Char} (isName : isNameChar c = true) : nesting c = 0 := by
  have other {d : Char} (notName : isNameChar d = false) : c ≠ d := by
    rintro rfl
    rw [isName] at notName
    cases notName
  have notOpening : ¬ (c = '(' ∨ c = '[') := not_or.mpr ⟨other (by decide), other (by decide)⟩
  have notClosing : ¬ (c = ')' ∨ c = ']') := not_or.mpr ⟨other (by decide), other (by decide)⟩
  rw [nesting, if_neg notOpening, if_neg notClosing]

theorem exists_firstPiece (start : Int) (s : List Char) :
    ∃ piece, CommasInside start piece ∧
      (s = piece ∨ ∃ rest, s = piece ++ ',' :: rest ∧ start + depth piece = 0) := by
  induction s generalizing start with
  | nil => exact ⟨[], commasInside_nil start, .inl rfl⟩
  | cons c s ih =>
    by_cases here : c = ',' ∧ start = 0
    · obtain ⟨rfl, rfl⟩ := here
      exact ⟨[], commasInside_nil 0, .inr ⟨s, rfl, rfl⟩⟩
    · obtain ⟨piece, inside, ends⟩ := ih (start + nesting c)
      refine ⟨c :: piece, commasInside_cons.mpr ⟨here, inside⟩, ?_⟩
      rcases ends with rfl | ⟨rest, rfl, closed⟩
      · exact .inl rfl
      · exact .inr ⟨rest, rfl, by rw [depth_cons, ← Int.add_assoc, closed]⟩

theorem readList_of_inside (inside : CommasInside 0 s) : readList s = entry s := by
  rw [readList_eq, splitTopLevel_of_inside inside, List.flatMap_singleton]

theorem readList_append (inside : CommasInside 0 s) (closed : depth s = 0) (t : List Char) :
    readList (s ++ ',' :: t) = entry s ++ readList t := by
  have cut : splitTopLevel 0 (s ++ ',' :: t) = s :: splitTopLevel 0 t := by
    rw [splitTopLevel_append inside, closed, Int.zero_add, splitTopLevel, if_pos ⟨rfl, rfl⟩,
      foldr_consFirst_cons, List.append_nil]
  rw [readList_eq, cut, List.flatMap_cons, ← readList_eq]

theorem readList_space (s : List Char) : readList (' ' :: s) = readList s := by
  have spaced : splitTopLevel 0 (' ' :: s) = consFirst ' ' (splitTopLevel 0 s) := rfl
  rw [readList_eq, readList_eq, spaced]
  cases splitTopLevel 0 s with
  | nil => rfl
  | cons piece pieces =>
    have sameTrim : trim (' ' :: piece) = trim piece := by
      rw [← List.singleton_append, trim_blank_append isBlank_of_mem_space]
    simp [consFirst, entry, sameTrim]

end Depth

def text (p : Parameter) : List Char :=
  declarationText p.name.toList p.type.toList (p.initialValue.map String.toList)

def stored (p : Parameter) : Parameter :=
  { p with type := String.ofList (squash p.type.toList) }

def listText (parameters : List Parameter) : List Char :=
  [',', ' '].intercalate (parameters.map text)

structure IsWritten (p : Parameter) : Prop where
  name : isName p.name.toList = true
  type : TypeExpr.reader p.type.toList = some []
  value : ∀ value ∈ p.initialValue, ValueText value.toList

instance (p : Parameter) : Decidable p.IsWritten :=
  decidable_of_iff
    (isName p.name.toList = true ∧ TypeExpr.reader p.type.toList = some [] ∧
      ∀ value ∈ p.initialValue, ValueText value.toList)
    ⟨fun ⟨name, type, value⟩ => ⟨name, type, value⟩,
      fun written => ⟨written.name, written.type, written.value⟩⟩

section Entry

variable {p : Parameter}

theorem visible_valueSuffix {rest : List Char} {value : Option String} (ends : EndsEntry rest)
    (read : default? (trimStart rest) = some value) :
    visible (valueSuffix (value.map String.toList)) = visible rest := by
  obtain rfl | ⟨body, begins⟩ := ends
  · obtain rfl : none = value := Option.some.inj read
    rfl
  · have sign : trimStart rest = ":=".toList ++ body := begins
    rw [sign, default?, if_neg (by simp), literal_append] at read
    simp only [Option.bind_eq_bind, Option.bind_some, Option.ite_none_left_eq_some,
      Option.some.injEq] at read
    obtain ⟨-, rfl⟩ := read
    have sameBody : visible (' ' :: trim body) = visible body := by rw [visible_space, visible_trim]
    rw [← visible_trimStart rest, sign, visible_append, Option.map_some, String.toList_ofList,
      valueSuffix, ← sameBody]
    rfl

theorem visible_of_read? {e : List Char} (trimmed : trim e = e) (read : read? e = some p) :
    visible e = visible p.text := by
  cases split : splitAtChar ':' e with
  | none => simp [read?, split] at read
  | some parts =>
    obtain ⟨before, behind⟩ := parts
    obtain ⟨-, last⟩ := ends_of_split trimmed split
    obtain ⟨⟨-, name⟩, part, rest, parts, -, ends, type, value⟩ :=
      (read?_iff_holds split last).mp read
    have colon (s : List Char) : visible (':' :: s) = ':' :: visible s :=
      visible_cons (by decide) s
    have behindColon : visible behind = visible part ++ visible rest := by
      rw [← visible_trimStart behind, parts, visible_append]
    rw [splitAtChar_eq split, visible_append, colon, behindColon, text, declarationText, name, type,
      String.toList_ofList, String.toList_ofList, visible_append, visible_trimEnd, visible_space,
      colon, visible_space, visible_append, visible_squash, visible_valueSuffix ends value]

namespace IsWritten

variable (written : p.IsWritten)

include written

theorem values : ∀ text ∈ p.initialValue.map String.toList, ValueText text := by
  intro text member
  obtain ⟨value, isValue, rfl⟩ := Option.map_eq_some_iff.mp member
  exact written.value value isValue

theorem head_text : ∃ c rest, p.text = c :: rest ∧ isNameStart c = true := by
  obtain ⟨c, rest, shape, start, -⟩ := isName_cons written.name
  exact ⟨c, _, by rw [text, declarationText, shape]; rfl, start⟩

theorem first_text : ∀ c ∈ p.text.head?, isBlank c = false := by
  obtain ⟨c, rest, shape, start⟩ := written.head_text
  rw [shape]
  rintro _ ⟨⟩
  exact isBlank_of_name (isNameChar_of_isNameStart start)

theorem last_text : ∀ c ∈ p.text.getLast?, isBlank c = false := by
  have ending (s : List Char) (nonempty : s ≠ []) (suffix : s <:+ p.text)
      (last : ∀ c ∈ s.getLast?, isBlank c = false) : ∀ c ∈ p.text.getLast?, isBlank c = false := by
    have isLast := List.getLast?_eq_some_getLast nonempty
    rw [last_of_suffix suffix _ isLast]
    rintro _ ⟨⟩
    exact last _ isLast
  have shape : p.text = (p.name.toList ++ [' ', ':', ' ']) ++
      (p.type.toList ++ valueSuffix (p.initialValue.map String.toList)) := by
    simp [text, declarationText]
  cases initial : p.initialValue with
  | none =>
    rw [initial, Option.map_none, valueSuffix, List.append_nil] at shape
    obtain ⟨c, rest, type, -⟩ := TypeExpr.head_of_reader written.type
    refine ending p.type.toList (by simp [type]) ?_ (TypeExpr.last_of_reader written.type)
    rw [shape]
    exact List.suffix_append _ _
  | some value =>
    have isValue := written.value value initial
    rw [initial, Option.map_some, valueSuffix] at shape
    refine ending value.toList isValue.nonempty ?_ ?_
    · rw [shape]
      refine ⟨p.name.toList ++ [' ', ':', ' '] ++ p.type.toList ++ [' ', ':', '=', ' '], ?_⟩
      simp
    · have last := last_trim value.toList
      rwa [isValue.trimmed] at last

theorem trim_text : trim p.text = p.text :=
  trim_of_ends written.first_text written.last_text

theorem read?_text : read? p.text = some p.stored := by
  rw [read?_iff_declaration written.trim_text, text,
    Declaration.read?_declarationText written.name written.type written.values]
  simp [stored, Function.comp_def]

theorem entry_text : entry p.text = [.ok p.stored] := by
  have nonempty : p.text ≠ [] := by
    obtain ⟨c, rest, shape, -⟩ := written.head_text
    simp [shape]
  rw [entry, written.trim_text, if_neg nonempty, written.read?_text]

theorem visible_stored : visible p.stored.text = visible p.text := by
  have alone := visible_of_read? written.trim_text written.read?_text
  exact alone.symm

-- A text that is read as the parameter holds all of it, and nothing but blanks behind it.
theorem eq_text {piece after tail : List Char} (isEntry : entry piece = [.ok p.stored])
    (whole : p.text ++ tail = piece ++ after)
    (apart : ∀ c ∈ tail.head?, isBlank c = false) : piece = p.text := by
  have same : visible piece = visible p.text := by
    rw [entry] at isEntry
    split at isEntry
    · cases isEntry
    · split at isEntry
      · rename_i parameter read
        obtain rfl : parameter = p.stored := by simpa using isEntry
        rw [← visible_trim, visible_of_read? (trim_trim piece) read, written.visible_stored]
      · simp at isEntry
  have noMore {rest : List Char} (more : visible piece ++ visible rest = visible p.text ∨
      visible p.text ++ visible rest = visible piece) : visible rest = [] := by
    rcases more with more | more <;> simpa [same] using more
  rcases List.append_eq_append_iff.mp whole with ⟨rest, longer, isTail⟩ | ⟨rest, shorter, -⟩
  · -- What follows the entry is not blank.
    have blank := visible_eq_nil_iff.mp (noMore (.inr (by rw [← visible_append, ← longer])))
    cases rest with
    | nil => rw [longer, List.append_nil]
    | cons c rest =>
      have visible := apart c (by rw [isTail]; rfl)
      rw [blank c List.mem_cons_self] at visible
      cases visible
  · have blank := visible_eq_nil_iff.mp (noMore (.inl (by rw [← visible_append, ← shorter])))
    rcases List.eq_nil_or_concat rest with rfl | ⟨front, c, rfl⟩
    · rw [shorter, List.append_nil]
    · have visible := written.last_text c (by rw [shorter]; simp)
      rw [blank c (by simp)] at visible
      cases visible

end IsWritten

end Entry

section List

def behindFirst : List Parameter → List Char
  | [] => []
  | p :: parameters => ',' :: ' ' :: listText (p :: parameters)

theorem listText_cons (p : Parameter) (parameters : List Parameter) :
    listText (p :: parameters) = p.text ++ behindFirst parameters := by
  cases parameters with
  | nil => simp [listText, behindFirst, List.intercalate]
  | cons q parameters => simp [listText, behindFirst, List.intercalate]

theorem head_behindFirst (parameters : List Parameter) :
    ∀ c ∈ (behindFirst parameters).head?, isBlank c = false := by
  cases parameters with
  | nil => simp [behindFirst]
  | cons q parameters =>
    rintro _ ⟨⟩
    decide

theorem exists_entry {c : Char} (notBlank : isBlank c = false) (s : List Char) :
    ∃ result, entry (c :: s) = [result] := by
  have nonempty : trim (c :: s) ≠ [] := by
    intro empty
    have none := visible_trim (c :: s)
    rw [empty, visible_cons notBlank] at none
    cases none
  rw [entry, if_neg nonempty]
  cases read? (trim (c :: s)) with
  | none => exact ⟨_, rfl⟩
  | some parameter => exact ⟨_, rfl⟩

theorem IsWritten.firstPiece {p : Parameter} (written : p.IsWritten) {parameters : List Parameter}
    {results : List (Except String Parameter)}
    (read : readList (p.text ++ behindFirst parameters) = .ok p.stored :: results) :
    CommasInside 0 p.text ∧
      (behindFirst parameters = [] ∨ ∃ rest, behindFirst parameters = ',' :: rest ∧
        depth p.text = 0 ∧ readList rest = results) := by
  obtain ⟨piece, inside, ends⟩ := exists_firstPiece 0 (p.text ++ behindFirst parameters)
  obtain ⟨c, more, shape, start⟩ := written.head_text
  have notBlank := isBlank_of_name (isNameChar_of_isNameStart start)
  rcases ends with whole | ⟨rest, whole, closed⟩
  · obtain ⟨result, isEntry⟩ := exists_entry notBlank (more ++ behindFirst parameters)
    rw [← List.cons_append, ← shape, whole] at isEntry
    rw [whole, readList_of_inside inside, isEntry] at read
    obtain ⟨rfl, -⟩ := List.cons.inj read
    obtain rfl := written.eq_text isEntry (whole.trans (List.append_nil piece).symm)
      (head_behindFirst parameters)
    exact ⟨inside, .inl (by simpa using whole)⟩
  · have begins : ∃ s, piece = c :: s := by
      cases piece with
      | nil =>
        rw [shape] at whole
        obtain ⟨rfl, -⟩ := List.cons.inj whole
        exact absurd start (by decide)
      | cons d s =>
        rw [shape] at whole
        exact ⟨s, by rw [(List.cons.inj whole).1]⟩
    obtain ⟨s, isPiece⟩ := begins
    obtain ⟨result, isEntry⟩ := exists_entry notBlank s
    rw [← isPiece] at isEntry
    rw [Int.zero_add] at closed
    rw [whole, readList_append inside closed, isEntry] at read
    obtain ⟨rfl, later⟩ := List.cons.inj read
    obtain rfl := written.eq_text isEntry whole (head_behindFirst parameters)
    exact ⟨inside, .inr ⟨rest, List.append_cancel_left whole, closed, later⟩⟩

theorem readList_listText_iff {parameters : List Parameter}
    (written : ∀ p ∈ parameters, p.IsWritten) :
    readList (listText parameters) = parameters.map (fun p => .ok p.stored) ↔
      (∀ p ∈ parameters, CommasInside 0 p.text) ∧ ∀ p ∈ parameters.dropLast, depth p.text = 0 := by
  induction parameters with
  | nil =>
    simp [listText, readList_of_inside (commasInside_nil 0), entry, trim_nil, List.intercalate]
  | cons p parameters ih =>
    have isWritten := written p List.mem_cons_self
    have later := ih fun q member => written q (List.mem_cons_of_mem p member)
    rw [listText_cons, List.map_cons]
    constructor
    · intro read
      -- What was read first ends where the first parameter does.
      obtain ⟨inside, ends⟩ := isWritten.firstPiece read
      cases parameters with
      | nil => simpa using inside
      | cons q parameters =>
        obtain ⟨rest, split, closed, others⟩ := ends.resolve_left (List.cons_ne_nil _ _)
        obtain ⟨-, rfl⟩ := List.cons.inj split
        rw [readList_space] at others
        obtain ⟨insideOthers, closedOthers⟩ := later.mp others
        refine ⟨List.forall_mem_cons.mpr ⟨inside, insideOthers⟩, ?_⟩
        rw [List.dropLast_cons_cons]
        exact List.forall_mem_cons.mpr ⟨closed, closedOthers⟩
    · rintro ⟨inside, closed⟩
      obtain ⟨here, others⟩ := List.forall_mem_cons.mp inside
      cases parameters with
      | nil =>
        rw [behindFirst, List.append_nil, readList_of_inside here, isWritten.entry_text]
        rfl
      | cons q parameters =>
        rw [List.dropLast_cons_cons, List.forall_mem_cons] at closed
        rw [behindFirst, readList_append here closed.1, readList_space, isWritten.entry_text,
          later.mpr ⟨others, closed.2⟩]
        rfl

end List

end Parameter

def withoutLiterals (literalEnd : Option Char) : List Char → List Char
  | [] => []
  | '$' :: c :: rest =>
    match literalEnd with
    | some close => withoutLiterals (some close) rest
    | none => '$' :: withoutLiterals none (c :: rest)
  | c :: rest =>
    match literalEnd with
    | some close => withoutLiterals (if c = close then none else some close) rest
    | none => c :: withoutLiterals (stringClose? c) rest

theorem depth_withoutLiterals (literalEnd : Option Char) (s : List Char) :
    Parameter.depth (withoutLiterals literalEnd s) = bracketBalance literalEnd s := by
  fun_induction withoutLiterals literalEnd s with
  | case1 => rfl
  | case2 c rest close ih => exact ih
  | case3 c rest ih =>
    rw [Parameter.depth_cons, ih]
    exact Int.zero_add _
  | case4 c rest notEscape close ih =>
    rw [bracketBalance]
    · exact ih
    · exact notEscape
  | case5 c rest notEscape ih =>
    rw [Parameter.depth_cons, ih, bracketBalance]
    · split
      · rename_i opens
        have noQuote : stringClose? c = none := by
          rcases opens with rfl | rfl <;> decide
        rw [Parameter.nesting, if_pos opens, noQuote, Int.add_comm]
      · rename_i notOpening
        split
        · rename_i closes
          have noQuote : stringClose? c = none := by
            rcases closes with rfl | rfl <;> decide
          rw [Parameter.nesting, if_neg notOpening, if_pos closes, noQuote, Int.add_comm]
          rfl
        · rename_i notClosing
          rw [Parameter.nesting, if_neg notOpening, if_neg notClosing, Int.zero_add]
    · exact notEscape

structure ClosedOutsideLiterals (s : List Char) : Prop where
  opened : ∀ before ∈ (withoutLiterals none s).inits, 0 ≤ Parameter.depth before
  closed : bracketBalance none s = 0
  commas : Parameter.CommasInside 0 (withoutLiterals none s)

instance (s : List Char) : Decidable (ClosedOutsideLiterals s) :=
  decidable_of_iff
    ((∀ before ∈ (withoutLiterals none s).inits, 0 ≤ Parameter.depth before) ∧
      bracketBalance none s = 0 ∧ Parameter.CommasInside 0 (withoutLiterals none s))
    ⟨fun ⟨opened, closed, commas⟩ => ⟨opened, closed, commas⟩,
      fun isClosed => ⟨isClosed.opened, isClosed.closed, isClosed.commas⟩⟩

theorem withoutLiterals_cons (c : Char) (s : List Char) :
    withoutLiterals none (c :: s) = c :: withoutLiterals (stringClose? c) s := by
  by_cases escape : c = '$'
  · subst escape
    cases s with
    | nil => rfl
    | cons d s => rfl
  · rw [withoutLiterals]
    exact fun d rest same _ => escape same

theorem withoutLiterals_of_unquoted {s : List Char} (unquoted : ∀ c ∈ s, stringClose? c = none) :
    withoutLiterals none s = s := by
  induction s with
  | nil => rfl
  | cons c s ih =>
    rw [withoutLiterals_cons, unquoted c List.mem_cons_self,
      ih fun d member => unquoted d (List.mem_cons_of_mem c member)]

namespace Parameter

structure IsBalanced (p : Parameter) : Prop where
  type : Bracketed p.type.toList
  value : ∀ value ∈ p.initialValue, ClosedOutsideLiterals value.toList

instance (p : Parameter) : Decidable p.IsBalanced :=
  decidable_of_iff
    (Bracketed p.type.toList ∧ ∀ value ∈ p.initialValue, ClosedOutsideLiterals value.toList)
    ⟨fun ⟨type, value⟩ => ⟨type, value⟩, fun balanced => ⟨balanced.type, balanced.value⟩⟩

section Bracketed

variable {p : Parameter}

theorem IsBalanced.brackets_text (balanced : p.IsBalanced) (written : p.IsWritten) :
    (CommasInside 0 p.text ↔ ∀ value ∈ p.initialValue, CommasInside 0 value.toList) ∧
      (depth p.text = 0 ↔ ∀ value ∈ p.initialValue, depth value.toList = 0) := by
  have typeCommas := TypeExpr.commasInside_of_reader written.type balanced.type
  have typeDepth := depth_of_bracketed balanced.type
  have nameDepth : depth p.name.toList = 0 :=
    depth_of_plain fun c member => nesting_of_name (isName_characters written.name c member)
  have nameCommas : CommasInside 0 p.name.toList := by
    refine commasInside_of_absent fun member => ?_
    exact absurd (isName_characters written.name ',' member) (by decide)
  have shape : p.text = p.name.toList ++ ([' ', ':', ' '] ++
      (p.type.toList ++ valueSuffix (p.initialValue.map String.toList))) := by
    simp [text, declarationText]
  have sign : depth [' ', ':', ' '] = 0 ∧ CommasInside 0 [' ', ':', ' '] := by decide
  have suffix : CommasInside 0 p.text ↔
      CommasInside 0 (valueSuffix (p.initialValue.map String.toList)) := by
    rw [shape, commasInside_append, commasInside_append, commasInside_append, nameDepth, sign.1,
      typeDepth]
    simp [nameCommas, sign.2, typeCommas]
  have sameDepth : depth p.text = depth (valueSuffix (p.initialValue.map String.toList)) := by
    rw [shape, depth_append, depth_append, depth_append, nameDepth, sign.1, typeDepth]
    omega
  rw [suffix, sameDepth]
  cases p.initialValue with
  | none => simp [valueSuffix, commasInside_nil, depth]
  | some value =>
    have lead : valueSuffix (some value.toList) = [' ', ':', '=', ' '] ++ value.toList := rfl
    have plain : depth [' ', ':', '=', ' '] = 0 ∧ CommasInside 0 [' ', ':', '=', ' '] := by decide
    rw [Option.map_some, lead, commasInside_append, depth_append, plain.1]
    simp [plain.2]

end Bracketed

variable {parameters : List Parameter}

/-- Parameters with balanced brackets are read back if and only if, with the brackets in string
literals counted too, each comma of a value stands inside brackets and each value but the last
closes its brackets. -/
theorem readList_balanced_iff (written : ∀ p ∈ parameters, p.IsWritten)
    (balanced : ∀ p ∈ parameters, p.IsBalanced) :
    readList (listText parameters) = parameters.map (fun p => .ok p.stored) ↔
      (∀ p ∈ parameters, ∀ value ∈ p.initialValue, CommasInside 0 value.toList) ∧
        ∀ p ∈ parameters.dropLast, ∀ value ∈ p.initialValue, depth value.toList = 0 := by
  have brackets (p : Parameter) (member : p ∈ parameters) :=
    (balanced p member).brackets_text (written p member)
  have commas : (∀ p ∈ parameters, CommasInside 0 p.text) ↔
      ∀ p ∈ parameters, ∀ value ∈ p.initialValue, CommasInside 0 value.toList :=
    forall₂_congr fun p member => (brackets p member).1
  have depths : (∀ p ∈ parameters.dropLast, depth p.text = 0) ↔
      ∀ p ∈ parameters.dropLast, ∀ value ∈ p.initialValue, depth value.toList = 0 :=
    forall₂_congr fun p member => (brackets p (List.mem_of_mem_dropLast member)).2
  rw [readList_listText_iff written, commas, depths]

theorem readList_balanced_iff_limits :
    let parameters : List Parameter :=
      [⟨"limits", "ARRAY[0..1,  0..2] OF INT", some "[f(1, 2), 3]"⟩,
        ⟨"unit", "STRING", some "'m(s)'"⟩]
    ((∀ p ∈ parameters, p.IsWritten) ∧ ∀ p ∈ parameters, p.IsBalanced) ∧
      readList (listText parameters) = parameters.map (fun p => .ok p.stored) := by
  intro parameters
  have written : ∀ p ∈ parameters, p.IsWritten := by decide +kernel
  have balanced : ∀ p ∈ parameters, p.IsBalanced := by decide +kernel
  exact ⟨⟨written, balanced⟩, (readList_balanced_iff written balanced).mpr (by decide +kernel)⟩

theorem readList_quotedComma :
    let p : Parameter := ⟨"s", "STRING", some "'a,b'"⟩
    (p.IsWritten ∧ p.IsBalanced) ∧
      readList (listText [p]) = [.ok { p with initialValue := some "'a" }, .error "b'"] ∧
      readList (listText [p]) ≠ [.ok p.stored] := by
  decide +kernel

theorem readList_of_unquoted (written : ∀ p ∈ parameters, p.IsWritten)
    (balanced : ∀ p ∈ parameters, p.IsBalanced)
    (unquoted : ∀ p ∈ parameters, ∀ value ∈ p.initialValue, ∀ c ∈ value.toList,
      stringClose? c = none) :
    readList (listText parameters) = parameters.map (fun p => .ok p.stored) := by
  rw [readList_listText_iff written]
  constructor
  · intro p member
    rw [((balanced p member).brackets_text (written p member)).1]
    intro value isValue
    have commas := ((balanced p member).value value isValue).commas
    rwa [withoutLiterals_of_unquoted (unquoted p member value isValue)] at commas
  · intro p inFront
    have member := List.mem_of_mem_dropLast inFront
    rw [((balanced p member).brackets_text (written p member)).2]
    intro value isValue
    have closed := ((balanced p member).value value isValue).closed
    rwa [← depth_withoutLiterals,
      withoutLiterals_of_unquoted (unquoted p member value isValue)] at closed

end Parameter

end StructuredText
