import StructuredText.Proofs.Rereading

set_option autoImplicit false

namespace StructuredText

open Reader

namespace Parameter

def depth : List Char → Int
  | [] => 0
  | c :: s => nesting c + depth s

def CommasInside (start : Int) (s : List Char) : Prop :=
  ∀ before after, s = before ++ ',' :: after → start + depth before ≠ 0

section Split

variable {start : Int} {c : Char} {s : List Char}

theorem depth_cons (c : Char) (s : List Char) : depth (c :: s) = nesting c + depth s := rfl

theorem depth_append (s t : List Char) : depth (s ++ t) = depth s + depth t := by
  induction s with
  | nil => exact (Int.zero_add (depth t)).symm
  | cons c s ih => rw [List.cons_append, depth_cons, ih, depth_cons, Int.add_assoc]

theorem natAbs_depth_le (s : List Char) : (depth s).natAbs ≤ s.length := by
  induction s with
  | nil => exact Nat.zero_le _
  | cons c s ih =>
    rw [depth_cons, nesting, List.length_cons]
    split
    · omega
    · split <;> omega

theorem commasInside_nil (start : Int) : CommasInside start [] := by
  intro before after split
  simp at split

theorem commasInside_cons :
    CommasInside start (c :: s) ↔ ¬ (c = ',' ∧ start = 0) ∧ CommasInside (start + nesting c) s := by
  constructor
  · refine fun inside => ⟨?_, ?_⟩
    · rintro ⟨rfl, rfl⟩
      exact inside [] s rfl rfl
    · rintro before after rfl
      have whole := inside (c :: before) after rfl
      rwa [depth_cons, ← Int.add_assoc] at whole
  · rintro ⟨notHere, later⟩ before after split
    cases before with
    | nil =>
      obtain ⟨rfl, rfl⟩ := List.cons.inj split
      simpa [depth] using notHere
    | cons d before =>
      obtain ⟨rfl, rfl⟩ := List.cons.inj split
      rw [depth_cons, ← Int.add_assoc]
      exact later before after rfl

def CommasInside.decide : (start : Int) → (s : List Char) → Decidable (CommasInside start s)
  | start, [] => isTrue (commasInside_nil start)
  | start, c :: s =>
    have := CommasInside.decide (start + nesting c) s
    decidable_of_iff _ commasInside_cons.symm

instance (start : Int) (s : List Char) : Decidable (CommasInside start s) :=
  CommasInside.decide start s

theorem splitTopLevel_append (inside : CommasInside start s) (t : List Char) :
    splitTopLevel start (s ++ t) = s.foldr consFirst (splitTopLevel (start + depth s) t) := by
  induction s generalizing start with
  | nil => simp [depth]
  | cons c s ih =>
    obtain ⟨notHere, later⟩ := commasInside_cons.mp inside
    rw [List.cons_append, splitTopLevel, if_neg notHere, ih later, depth_cons, List.foldr_cons,
      Int.add_assoc]

theorem splitTopLevel_of_inside (inside : CommasInside start s) : splitTopLevel start s = [s] := by
  have whole := splitTopLevel_append inside []
  rwa [List.append_nil, splitTopLevel, foldr_consFirst_cons, List.append_nil] at whole

end Split

-- What one piece of a list is read as. A piece of blanks only is no entry.
def entry (piece : List Char) : List (Except String Parameter) :=
  if trim piece = [] then []
  else
    match read? (trim piece) with
    | some parameter => [.ok parameter]
    | none => [.error (String.ofList (trim piece))]

theorem readList_eq (s : List Char) : readList s = (splitTopLevel 0 s).flatMap entry := by
  rw [readList]
  generalize splitTopLevel 0 s = pieces
  induction pieces with
  | nil => rfl
  | cons piece pieces ih =>
    rw [List.flatMap_cons, ← ih, entry]
    by_cases empty : trim piece = []
    · simp [empty]
    · cases read : read? (trim piece) <;> simp [empty, read]

section Behind

variable {rest : List Char}

def EndsEntry (rest : List Char) : Prop :=
  rest = [] ∨ ∃ body, trimStart rest = ':' :: '=' :: body

theorem EndsEntry.apart (ends : EndsEntry rest) : ∀ d ∈ rest.head?, isTypeChar d = false := by
  cases rest with
  | nil => simp
  | cons d rest =>
    rintro _ ⟨⟩
    obtain empty | ⟨body, begins⟩ := ends
    · cases empty
    · by_cases blank : isBlank d = true
      · by_contra isType
        rw [isBlank_of_type (Bool.not_eq_false _ ▸ isType)] at blank
        cases blank
      · rw [trimStart, List.dropWhile_cons_of_neg blank] at begins
        rw [(List.cons.inj begins).1]
        decide

theorem EndsEntry.endsType (ends : EndsEntry rest) : EndsType (rest ++ [';']) := by
  refine ⟨TypeExpr.head_append_apart (endsType_valueSuffix none) ends.apart, ?_⟩
  obtain rfl | ⟨body, begins⟩ := ends
  · exact ⟨';', [], rfl, .inr rfl⟩
  · refine ⟨':', '=' :: (body ++ [';']), ?_, .inl rfl⟩
    rw [StructuredText.trimStart_append (by rw [begins]; simp), begins]
    rfl

theorem EndsEntry.reader {part : List Char} (ends : EndsEntry rest)
    (reads : TypeExpr.reader part = some []) : TypeExpr.reader (part ++ rest) = some rest := by
  have apart := ends.apart
  obtain rfl | ⟨body, begins⟩ := ends
  · rw [List.append_nil, reads]
  · exact TypeExpr.reader_append reads ⟨apart, ':', '=' :: body, begins, .inl rfl⟩

theorem eq_nil_of_blank (blank : trimStart rest = [])
    (last : ∀ c ∈ rest.getLast?, isBlank c = false) : rest = [] := by
  by_contra nonempty
  have visible := last _ (List.getLast?_eq_some_getLast nonempty)
  rw [List.dropWhile_eq_nil_iff.mp blank _ (List.getLast_mem nonempty)] at visible
  cases visible

variable (last : ∀ c ∈ rest.getLast?, isBlank c = false)

include last

theorem endsEntry_of_default? {value : Option String}
    (read : default? (trimStart rest) = some value) : EndsEntry rest := by
  rw [default?] at read
  split at read
  · rename_i blank
    exact .inl (eq_nil_of_blank blank last)
  · obtain ⟨body, begins, -⟩ := Option.bind_eq_some_iff.mp read
    exact .inr ⟨body, literal_eq_some begins⟩

theorem endsEntry_of_initialiser? {value : Option String}
    (read : Declaration.initialiser? (trimStart (rest ++ [';'])) = some value) :
    EndsEntry rest := by
  by_cases blank : trimStart rest = []
  · exact .inl (eq_nil_of_blank blank last)
  · right
    rw [StructuredText.trimStart_append blank, Declaration.initialiser?, if_neg (by simpa)] at read
    obtain ⟨body, begins, -⟩ := Option.bind_eq_some_iff.mp read
    have shape : trimStart rest ++ [';'] = ':' :: '=' :: body := literal_eq_some begins
    -- The sign is not cut by the semicolon.
    cases text : trimStart rest with
    | nil => exact absurd text blank
    | cons c more =>
      rw [text] at shape
      cases more with
      | nil => simp at shape
      | cons d more =>
        obtain ⟨rfl, same⟩ := List.cons.inj shape
        obtain ⟨rfl, -⟩ := List.cons.inj same
        exact ⟨more, rfl⟩

-- A value of blanks only cannot stand at the end of a trimmed text.
theorem initialiser?_concat (ends : EndsEntry rest) :
    Declaration.initialiser? (trimStart (rest ++ [';'])) = default? (trimStart rest) := by
  obtain rfl | ⟨body, begins⟩ := ends
  · rfl
  · have shape : trimStart (rest ++ [';']) = ":=".toList ++ (body ++ [';']) := by
      rw [StructuredText.trimStart_append (by rw [begins]; simp), begins]
      rfl
    have sign : trimStart rest = ":=".toList ++ body := begins
    have noValue (empty : trim body = []) : body = [] := by
      obtain ⟨lead, tail, whole, blankLead, blankTail⟩ := trim_append body
      rw [empty, List.append_nil] at whole
      have blank : ∀ c ∈ body, isBlank c = true := by
        rw [whole]
        exact fun c member => (List.mem_append.mp member).elim (blankLead c) (blankTail c)
      have suffix : body <:+ rest := by
        have behindSign := trimStart_suffix rest
        rw [sign] at behindSign
        exact (List.suffix_append _ body).trans behindSign
      exact eq_nil_of_blank (List.dropWhile_eq_nil_iff.mpr blank)
        fun c ends => last c (last_of_suffix suffix c ends)
    rw [shape, sign, Declaration.initialiser?, default?, literal_append, literal_append,
      if_neg (by simp), if_neg (by simp)]
    simp only [Option.bind_eq_bind, Option.bind_some, List.dropLast_concat, List.getLast?_concat]
    by_cases empty : trim body = []
    · simp [noValue empty, trim_nil]
    · simp [empty]

end Behind

structure Holds (p : Parameter) (before behind : List Char) : Prop where
  name : isName (trimEnd before) = true ∧ p.name = String.ofList (trimEnd before)
  parts : ∃ part rest, trimStart behind = part ++ rest ∧ TypeExpr.reader part = some [] ∧
    EndsEntry rest ∧ p.type = String.ofList (squash part) ∧
    default? (trimStart rest) = some p.initialValue

section Agree

variable {e before behind : List Char} {p : Parameter}

theorem last_of_part {part rest : List Char} (last : ∀ c ∈ behind.getLast?, isBlank c = false)
    (parts : trimStart behind = part ++ rest) : ∀ c ∈ rest.getLast?, isBlank c = false := by
  intro c ends
  have suffix : rest <:+ behind := by
    have whole := trimStart_suffix behind
    rw [parts] at whole
    exact (List.suffix_append part rest).trans whole
  exact last c (last_of_suffix suffix c ends)

theorem read?_iff_holds (split : splitAtChar ':' e = some (before, behind))
    (last : ∀ c ∈ behind.getLast?, isBlank c = false) :
    read? e = some p ↔ p.Holds before behind := by
  simp only [read?, split, Option.bind_eq_bind, Option.bind_some, Option.bind_eq_some_iff,
    Prod.exists, Option.ite_none_right_eq_some, Option.some.injEq]
  constructor
  · rintro ⟨type, rest, isType, value, isValue, named, rfl⟩
    obtain ⟨_, reads, same⟩ := Option.map_eq_some_iff.mp isType
    obtain ⟨rfl, rfl⟩ := Prod.mk.inj same
    obtain ⟨part, parts, alone⟩ := TypeExpr.reader_part reads
    refine ⟨⟨named, rfl⟩, part, _, parts, alone, ?_, ?_, isValue⟩
    · exact endsEntry_of_default? (last_of_part last parts) isValue
    · rw [parts, consumed_append]
  · rintro ⟨⟨named, isName⟩, part, rest, parts, alone, ends, type, value⟩
    refine ⟨p.type, rest, ?_, p.initialValue, value, named, by rw [← isName]⟩
    rw [parts, TypeExpr.read?, ends.reader alone, Option.map_some, consumed_append, type]

theorem names_iff (first : ∀ c ∈ before.head?, isBlank c = false) (name : String) :
    let names := (splitWhere (· == ',') before).map trim
    (trimStart before == before && names.all isName) = true ∧
        names.map String.ofList = [name] ↔
      isName (trimEnd before) = true ∧ name = String.ofList (trimEnd before) := by
  have begins : trimStart before = before := trimStart_of_head first
  have whole : trim before = trimEnd before := by rw [trim, begins]
  by_cases several : ',' ∈ before
  · -- More than one name, and no name holds a comma.
    obtain ⟨front, back, rfl⟩ := List.append_of_mem several
    have notName : ¬ isName (trimEnd (front ++ ',' :: back)) = true := by
      intro named
      obtain ⟨blank, parts, blanks⟩ := trimEnd_append (front ++ ',' :: back)
      rw [parts, List.mem_append] at several
      rcases several with inName | inBlank
      · exact absurd (isName_characters named ',' inName) (by decide)
      · exact absurd (blanks ',' inBlank) (by decide)
    obtain ⟨piece, pieces, one⟩ :=
      List.exists_cons_of_ne_nil (splitWhere_ne_nil (· == ',') front)
    obtain ⟨second, others, two⟩ :=
      List.exists_cons_of_ne_nil (splitWhere_ne_nil (· == ',') back)
    have cut : splitWhere (· == ',') (front ++ ',' :: back) =
        (piece :: pieces) ++ (second :: others) := by
      rw [splitWhere_append_cons rfl, one, two]
    simp [cut, notName]
  · have alone : splitWhere (· == ',') before = [before] := by
      apply splitWhere_of_uncut
      intro c member
      rw [beq_eq_false_iff_ne]
      rintro rfl
      exact several member
    simp only [alone, begins, List.map_cons, List.map_nil, whole, List.all_cons, List.all_nil,
      Bool.and_true, beq_self_eq_true, Bool.true_and, List.cons.injEq, and_true]
    exact and_congr_right fun _ => eq_comm

theorem trimStart_concat {c : Char} (visible : isBlank c = false) (s : List Char) :
    trimStart (s ++ [c]) = trimStart s ++ [c] := by
  by_cases blank : trimStart s = []
  · rw [blank, trimStart_blank_append (List.dropWhile_eq_nil_iff.mp blank)]
    exact trimStart_of_head (by simpa using visible)
  · exact StructuredText.trimStart_append blank

theorem declaration_iff_holds (split : splitAtChar ':' e = some (before, behind))
    (first : ∀ c ∈ before.head?, isBlank c = false)
    (last : ∀ c ∈ behind.getLast?, isBlank c = false) :
    Declaration.read? (e ++ [';']) =
        some { names := [p.name], type := p.type, initialValue := p.initialValue } ↔
      p.Holds before behind := by
  simp only [Declaration.read?, splitAtChar_append split, Option.bind_eq_bind, Option.bind_some,
    Option.bind_eq_some_iff, Prod.exists, Option.ite_none_right_eq_some, Option.some.injEq,
    Declaration.mk.injEq, trimStart_concat (c := ';') (by decide)]
  constructor
  · rintro ⟨type, after, isType, value, isValue, named, names, rfl, rfl⟩
    obtain ⟨left, reads, same⟩ := Option.map_eq_some_iff.mp isType
    obtain ⟨isSquashed, rfl⟩ := Prod.mk.inj same
    obtain ⟨part, parts, alone⟩ := TypeExpr.reader_part reads
    -- Something has to be left for the semicolon.
    rcases List.eq_nil_or_concat left with rfl | ⟨rest, d, rfl⟩
    · cases isValue
    · rw [List.concat_eq_append] at parts isValue isSquashed
      obtain ⟨split, sameEnd⟩ :=
        List.append_inj' (parts.trans (List.append_assoc part rest [d]).symm) rfl
      obtain rfl : ';' = d := by simpa using sameEnd
      have lastVisible := last_of_part last split
      have ends := endsEntry_of_initialiser? lastVisible isValue
      rw [initialiser?_concat lastVisible ends] at isValue
      refine ⟨(names_iff first p.name).mp ⟨named, names⟩, part, rest, split, alone, ends, ?_,
        isValue⟩
      rw [← isSquashed, parts, consumed_append]
  · rintro ⟨isName, part, rest, parts, alone, ends, type, value⟩
    obtain ⟨named, names⟩ := (names_iff first p.name).mpr isName
    refine ⟨p.type, rest ++ [';'], ?_, p.initialValue, ?_, named, names, rfl, rfl⟩
    · rw [parts, List.append_assoc, TypeExpr.read?_append alone ends.endsType, type]
    · rw [initialiser?_concat (last_of_part last parts) ends, value]

theorem splitAtChar_eq_none_iff {close : Char} {s : List Char} :
    splitAtChar close s = none ↔ close ∉ s := by
  induction s with
  | nil => simp [splitAtChar]
  | cons c s ih =>
    by_cases closes : c = close
    · simp [splitAtChar, closes]
    · simp [splitAtChar, closes, Ne.symm closes, ih]

theorem ends_of_split (trimmed : trim e = e) (split : splitAtChar ':' e = some (before, behind)) :
    (∀ c ∈ before.head?, isBlank c = false) ∧ ∀ c ∈ behind.getLast?, isBlank c = false := by
  have whole := splitAtChar_eq split
  constructor
  · intro c begins
    have inText := head_trim e c
    rw [trimmed, whole, List.head?_append, Option.mem_def.mp begins] at inText
    exact inText rfl
  · intro c ends
    have suffix : behind <:+ e := by
      rw [whole]
      exact (List.suffix_cons ':' behind).trans (List.suffix_append before _)
    have inText := last_trim e c
    rw [trimmed] at inText
    exact inText (last_of_suffix suffix c ends)

theorem read?_iff_declaration (trimmed : trim e = e) :
    read? e = some p ↔
      Declaration.read? (e ++ [';']) =
        some { names := [p.name], type := p.type, initialValue := p.initialValue } := by
  cases split : splitAtChar ':' e with
  | none =>
    have noColon : splitAtChar ':' (e ++ [';']) = none := by
      rw [splitAtChar_eq_none_iff] at split ⊢
      simp [split]
    simp [read?, Declaration.read?, split, noColon]
  | some parts =>
    obtain ⟨before, behind⟩ := parts
    obtain ⟨first, last⟩ := ends_of_split trimmed split
    rw [read?_iff_holds split last, declaration_iff_holds split first last]

end Agree

theorem readList_iff_declaration {e : List Char} (trimmed : trim e = e) (single : CommasInside 0 e)
    (p : Parameter) :
    readList e = [.ok p] ↔
      Declaration.read? (e ++ [';']) =
        some { names := [p.name], type := p.type, initialValue := p.initialValue } := by
  rw [← read?_iff_declaration trimmed, readList_eq, splitTopLevel_of_inside single,
    List.flatMap_singleton, entry, trimmed]
  by_cases empty : e = []
  · simp [empty, read?, splitAtChar]
  · cases read? e <;> simp [empty]

theorem readList_iff_declaration_bracketed :
    let e := "limits : ARRAY[0..1, 0..2] OF  INT := f(a, ';')".toList
    let p : Parameter := ⟨"limits", "ARRAY[0..1, 0..2] OF INT", some "f(a, ';')"⟩
    (trim e = e ∧ CommasInside 0 e) ∧ readList e = [.ok p] ∧
      (readList e = [.ok p] ↔
        Declaration.read? (e ++ [';']) =
          some { names := [p.name], type := p.type, initialValue := p.initialValue }) := by
  intro e p
  have trimmed : trim e = e := by decide +kernel
  have single : CommasInside 0 e := by decide +kernel
  exact ⟨⟨trimmed, single⟩, by decide +kernel, readList_iff_declaration trimmed single p⟩

end Parameter

end StructuredText
