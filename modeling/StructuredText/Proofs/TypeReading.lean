import StructuredText.Proofs.PlainHeader

set_option autoImplicit false

namespace StructuredText

open Reader

namespace Reader

variable {s rest u : List Char}

theorem bracketed_append {opening closing : Char} (read : bracketed opening closing s = some rest) :
    bracketed opening closing (s ++ u) = some (rest ++ u) := by
  cases s with
  | nil => cases read
  | cons c s =>
    simp only [bracketed, Option.ite_none_right_eq_some, Option.map_eq_some_iff] at read
    obtain ⟨opens, ⟨inner, _⟩, split, rfl⟩ := read
    simp [bracketed, opens, splitAtChar_append split]

theorem bracketed_of_head {opening closing : Char} (other : ∀ c ∈ s.head?, c ≠ opening) :
    bracketed opening closing s = none := by
  cases s with
  | nil => rfl
  | cons c s => exact if_neg (other c rfl)

theorem bracketed_nonempty {opening closing : Char}
    (read : bracketed opening closing s = some rest) : s ≠ [] := by
  rintro rfl
  cases read

theorem literal_append_of_some {keyword : String} (read : literal keyword s = some rest) :
    literal keyword (s ++ u) = some (rest ++ u) := by
  rw [literal_eq_some read, List.append_assoc, literal_append]

theorem blanks_eq_trimStart (read : blanks s = some rest) : rest = trimStart s := by
  cases s with
  | nil => cases read
  | cons c s =>
    simp only [blanks, Option.ite_none_right_eq_some, Option.some.injEq] at read
    rw [trimStart, List.dropWhile_cons_of_pos read.1]
    exact read.2.symm

theorem blanks_append (read : blanks s = some rest) :
    blanks (s ++ u) = some (trimStart (rest ++ u)) := by
  cases s with
  | nil => cases read
  | cons c s =>
    simp only [blanks, Option.ite_none_right_eq_some, Option.some.injEq] at read
    obtain ⟨blank, rfl⟩ := read
    have parts : s = s.takeWhile isBlank ++ trimStart s := List.takeWhile_append_dropWhile.symm
    have dropped : trimStart (s ++ u) = trimStart (trimStart s ++ u) := by
      nth_rewrite 1 [parts]
      rw [List.append_assoc, trimStart_blank_append (List.all_eq_true.mp List.all_takeWhile)]
    simp [blanks, blank, dropped]

theorem blanks_append_of_nonempty (read : blanks s = some rest) (nonempty : rest ≠ []) :
    blanks (s ++ u) = some (rest ++ u) := by
  have visible : ∀ c ∈ rest.head?, isBlank c = false := by
    rw [blanks_eq_trimStart read]
    exact stops_dropWhile isBlank s
  rw [blanks_append read, trimStart_of_head]
  rwa [List.head?_append_of_ne_nil _ nonempty]

end Reader

def isTypeChar (c : Char) : Bool :=
  isNameChar c || c == '.'

theorem isBlank_of_type {c : Char} (isType : isTypeChar c = true) : isBlank c = false := by
  rcases (Bool.or_eq_true _ _).mp isType with isName | isDot
  · exact isBlank_of_name isName
  · rw [beq_iff_eq.mp isDot]
    decide

structure EndsType (u : List Char) : Prop where
  apart : ∀ d ∈ u.head?, isTypeChar d = false
  begins : ∃ c rest, trimStart u = c :: rest ∧ (c = ':' ∨ c = ';')

namespace TypeExpr

section Wrapper

variable {s rest u : List Char}

theorem array_append (read : wrapper.array s = some rest) :
    wrapper.array (s ++ u) = some (trimStart (rest ++ u)) := by
  simp only [wrapper.array, Option.bind_eq_bind, Option.bind_eq_some_iff] at read
  obtain ⟨index, isArray, element, inBrackets, type, isOf, behind⟩ := read
  have someElement : trimStart element ≠ [] := by
    intro empty
    rw [empty] at isOf
    cases isOf
  simp [wrapper.array, literal_append_of_some isArray,
    StructuredText.trimStart_append (bracketed_nonempty inBrackets), bracketed_append inBrackets,
    StructuredText.trimStart_append someElement, literal_append_of_some isOf,
    blanks_append behind]

theorem wordTo_append {keyword : String} (read : wrapper.wordTo keyword s = some rest) :
    wrapper.wordTo keyword (s ++ u) = some (trimStart (rest ++ u)) := by
  simp only [wrapper.wordTo, Option.bind_eq_bind, Option.bind_eq_some_iff] at read
  obtain ⟨behind, isWord, target, separated, type, isTo, spaced⟩ := read
  have someTo : target ≠ [] := by
    rintro rfl
    cases isTo
  simp [wrapper.wordTo, literal_append_of_some isWord,
    blanks_append_of_nonempty separated someTo, literal_append_of_some isTo, blanks_append spaced]

theorem literal_of_wordTo {keyword : String} (read : wrapper.wordTo keyword s = some rest) :
    ∃ behind, s = keyword.toList ++ behind := by
  obtain ⟨behind, isWord, -⟩ := Option.bind_eq_some_iff.mp read
  exact ⟨behind, literal_eq_some isWord⟩

theorem wrapper_append (read : wrapper s = some rest) :
    wrapper (s ++ u) = some (trimStart (rest ++ u)) := by
  simp only [wrapper, Option.or_eq_some_iff] at read
  rcases read with array | ⟨-, pointer | ⟨-, reference⟩⟩
  · simp [wrapper, array_append array]
  · obtain ⟨behind, rfl⟩ := literal_of_wordTo pointer
    have noArray : wrapper.array ("POINTER".toList ++ behind ++ u) = none := by
      simp [wrapper.array, literal]
    rw [wrapper, noArray, wordTo_append pointer]
    rfl
  · obtain ⟨behind, rfl⟩ := literal_of_wordTo reference
    have noArray : wrapper.array ("REFERENCE".toList ++ behind ++ u) = none := by
      simp [wrapper.array, literal]
    have noPointer : wrapper.wordTo "POINTER" ("REFERENCE".toList ++ behind ++ u) = none := by
      simp [wrapper.wordTo, literal]
    rw [wrapper, noArray, noPointer, wordTo_append reference]
    rfl

end Wrapper

def IsIndex (behind : List Char) : Prop :=
  behind = [] ∨ bracketed '[' ']' (trimStart behind) = some [] ∨
    bracketed '[' ']' (trimStart behind) = none ∧ bracketed '(' ')' (trimStart behind) = some []

section Base

variable {front behind u : List Char}

theorem base_append {t : List Char} (starts : ∀ c ∈ front.head?, isNameStart c = true)
    (nonempty : front ≠ []) (inName : ∀ c ∈ front, isTypeChar c = true)
    (apart : ∀ d ∈ t.head?, isTypeChar d = false) :
    base (front ++ t) =
      some (((bracketed '[' ']' (trimStart t)).or (bracketed '(' ')' (trimStart t))).getD t) := by
  obtain ⟨c, rest, rfl⟩ := List.exists_cons_of_ne_nil nonempty
  have later : ∀ d ∈ rest, isTypeChar d = true :=
    fun d member => inName d (List.mem_cons_of_mem c member)
  have after : (rest ++ t).dropWhile isTypeChar = t := by
    rw [(span_append apart).2, List.dropWhile_eq_nil_iff.mpr later, List.nil_append]
  have isType : (fun c => isNameChar c || c == '.') = isTypeChar := rfl
  rw [List.cons_append, base, if_pos (starts c rfl), isType, after]

theorem isIndex_of_getD
    (read : ((bracketed '[' ']' (trimStart behind)).or
      (bracketed '(' ')' (trimStart behind))).getD behind = []) : IsIndex behind := by
  cases range : bracketed '[' ']' (trimStart behind) with
  | some after =>
    rw [range] at read
    obtain rfl : after = [] := read
    exact .inr (.inl range)
  | none =>
    cases size : bracketed '(' ')' (trimStart behind) with
    | some after =>
      rw [range, size] at read
      obtain rfl : after = [] := read
      exact .inr (.inr ⟨range, size⟩)
    | none =>
      rw [range, size] at read
      exact .inl read

theorem base_eq_some {s rest : List Char} (read : base s = some rest) :
    ∃ front behind, s = front ++ behind ∧ (∀ c ∈ front.head?, isNameStart c = true) ∧
      front ≠ [] ∧ (∀ c ∈ front, isTypeChar c = true) ∧
      (∀ d ∈ behind.head?, isTypeChar d = false) ∧
      ((bracketed '[' ']' (trimStart behind)).or
        (bracketed '(' ')' (trimStart behind))).getD behind = rest := by
  cases s with
  | nil => cases read
  | cons c s =>
    have starts : isNameStart c = true := by
      by_contra other
      simp [base, other] at read
    have apart := stops_dropWhile isTypeChar s
    have inName : ∀ d ∈ c :: s.takeWhile isTypeChar, isTypeChar d = true := by
      intro d member
      rcases List.mem_cons.mp member with rfl | member
      · rw [isTypeChar, isNameChar_of_isNameStart starts, Bool.true_or]
      · exact List.all_eq_true.mp List.all_takeWhile d member
    have shape : c :: s = (c :: s.takeWhile isTypeChar) ++ s.dropWhile isTypeChar := by
      simp
    rw [shape, base_append (by simpa using starts) (by simp) inName apart,
      Option.some.injEq] at read
    exact ⟨_, _, shape, by simpa using starts, by simp, inName, apart, read⟩

theorem base_eq_nil {s : List Char} (read : base s = some []) :
    ∃ front behind, s = front ++ behind ∧ (∀ c ∈ front.head?, isNameStart c = true) ∧
      front ≠ [] ∧ (∀ c ∈ front, isTypeChar c = true) ∧
      (∀ d ∈ behind.head?, isTypeChar d = false) ∧ IsIndex behind := by
  obtain ⟨front, behind, shape, starts, nonempty, inName, apart, index⟩ := base_eq_some read
  exact ⟨front, behind, shape, starts, nonempty, inName, apart, isIndex_of_getD index⟩

theorem IsIndex.append (isIndex : IsIndex behind) (ends : EndsType u) :
    (∀ c ∈ (trimStart (behind ++ u)).head?, c ≠ 'T') ∧
      (∀ rest, bracketed '[' ']' (trimStart (behind ++ u)) = some rest → rest = u) ∧
      ((bracketed '[' ']' (trimStart (behind ++ u))).or
        (bracketed '(' ')' (trimStart (behind ++ u)))).getD (behind ++ u) = u := by
  have opened {opening closing : Char} {text : List Char}
      (read : bracketed opening closing text = some []) : ∃ rest, text = opening :: rest := by
    cases text with
    | nil => cases read
    | cons c text =>
      simp only [bracketed, Option.ite_none_right_eq_some] at read
      exact ⟨text, by rw [read.1]⟩
  rcases isIndex with rfl | range | ⟨noRange, size⟩
  · obtain ⟨c, rest, begins, colon | semicolon⟩ := ends.begins
    · simp [begins, colon, bracketed]
    · simp [begins, semicolon, bracketed]
  · obtain ⟨rest, shape⟩ := opened range
    have read := bracketed_append (u := u) range
    rw [StructuredText.trimStart_append (bracketed_nonempty range), read]
    simp [shape]
  · obtain ⟨rest, shape⟩ := opened size
    have read := bracketed_append (u := u) size
    have stillNone : bracketed '[' ']' (trimStart behind ++ u) = none :=
      bracketed_of_head (by simp [shape])
    rw [StructuredText.trimStart_append (bracketed_nonempty size), read, stillNone]
    simp [shape]

theorem literal_front {keyword : String} {t mid : List Char}
    (isWord : ∀ c ∈ keyword.toList, isTypeChar c = true)
    (inName : ∀ c ∈ front, isTypeChar c = true) (apart : ∀ d ∈ t.head?, isTypeChar d = false)
    (read : literal keyword (front ++ t) = some mid) :
    mid = t ∨ ∃ c rest, mid = c :: rest ∧ isTypeChar c = true := by
  by_cases stops : ∀ d ∈ mid.head?, isTypeChar d = false
  · left
    have dropped := congrArg (List.dropWhile isTypeChar) (literal_eq_some read)
    rw [(span_append apart).2, (span_append stops).2, List.dropWhile_eq_nil_iff.mpr inName,
      List.dropWhile_eq_nil_iff.mpr isWord] at dropped
    exact dropped.symm
  · right
    simp only [not_forall, Bool.not_eq_false] at stops
    obtain ⟨c, first, isType⟩ := stops
    obtain ⟨rest, shape⟩ := List.head?_eq_some_iff.mp first
    exact ⟨c, rest, shape, isType⟩

theorem head_append_apart (ends : EndsType u) (apart : ∀ d ∈ behind.head?, isTypeChar d = false) :
    ∀ d ∈ (behind ++ u).head?, isTypeChar d = false := by
  cases behind with
  | nil => exact ends.apart
  | cons d behind => simpa using apart

section Front

variable (inName : ∀ c ∈ front, isTypeChar c = true)
  (apart : ∀ d ∈ behind.head?, isTypeChar d = false) (isIndex : IsIndex behind)
  (ends : EndsType u)

include inName apart isIndex ends

theorem array_of_front : wrapper.array (front ++ (behind ++ u)) = none := by
  obtain ⟨-, onlyRange, -⟩ := isIndex.append ends
  cases array : literal "ARRAY" (front ++ (behind ++ u)) with
  | none => simp [wrapper.array, array]
  | some mid =>
    rcases literal_front (List.all_eq_true.mp (by decide)) inName (head_append_apart ends apart)
      array with rfl | ⟨c, rest, rfl, isType⟩
    · cases range : bracketed '[' ']' (trimStart (behind ++ u)) with
      | none => simp [wrapper.array, array, range]
      | some after =>
        obtain rfl := onlyRange after range
        obtain ⟨c, rest, begins, sign⟩ := ends.begins
        have noOf : literal "OF" (c :: rest) = none := by
          rcases sign with rfl | rfl <;> simp [literal]
        simp [wrapper.array, array, range, begins, noOf]
    · have first : trimStart (c :: rest) = c :: rest :=
        trimStart_of_head (by simpa using isBlank_of_type isType)
      have noRange : bracketed '[' ']' (c :: rest) = none := by
        refine bracketed_of_head ?_
        rintro d ⟨⟩ rfl
        exact absurd isType (by decide)
      simp [wrapper.array, array, first, noRange]

theorem wordTo_of_front (keyword : String) (isWord : keyword.toList.all isTypeChar = true) :
    wrapper.wordTo keyword (front ++ (behind ++ u)) = none := by
  obtain ⟨noTo, -, -⟩ := isIndex.append ends
  cases word : literal keyword (front ++ (behind ++ u)) with
  | none => simp [wrapper.wordTo, word]
  | some mid =>
    cases spaced : blanks mid with
    | none => simp [wrapper.wordTo, word, spaced]
    | some target =>
      have noTarget : literal "TO" target = none := by
        rcases literal_front (List.all_eq_true.mp isWord) inName (head_append_apart ends apart)
          word with rfl | ⟨c, rest, rfl, isType⟩
        · rw [blanks_eq_trimStart spaced]
          refine literal_of_head (by decide) ?_
          rintro c first ⟨⟩
          exact noTo 'T' first rfl
        · simp [blanks, isBlank_of_type isType] at spaced
      simp [wrapper.wordTo, word, spaced, noTarget]

end Front

theorem wrapper_of_base {s : List Char} (read : base s = some []) (ends : EndsType u) :
    wrapper (s ++ u) = none := by
  obtain ⟨front, behind, rfl, -, -, inName, apart, isIndex⟩ := base_eq_nil read
  have noArray := array_of_front inName apart isIndex ends
  have noPointer := wordTo_of_front inName apart isIndex ends "POINTER" (by decide)
  have noReference := wordTo_of_front inName apart isIndex ends "REFERENCE" (by decide)
  simp [wrapper, noArray, noPointer, noReference]

theorem reader_append {s : List Char} (read : reader s = some []) (ends : EndsType u) :
    reader (s ++ u) = some u := by
  fun_induction reader s with
  | case1 s rest wraps ih =>
    have longer := wrapper_append (u := u) wraps
    rw [trimStart_append read] at longer
    rw [reader_of_wrapper longer]
    exact ih read
  | case2 s noWrapper =>
    obtain ⟨front, behind, shape, starts, nonempty, inName, apart, isIndex⟩ := base_eq_nil read
    rw [reader_of_base (wrapper_of_base read ends), shape, List.append_assoc,
      base_append starts nonempty inName (head_append_apart ends apart),
      (isIndex.append ends).2.2]

theorem read?_append {s : List Char} (reads : reader s = some []) (ends : EndsType u) :
    read? (s ++ u) = some (String.ofList (squash s), u) := by
  rw [read?, reader_append reads ends, Option.map_some, consumed_append]

end Base

end TypeExpr

end StructuredText
