import StructuredText.Proofs.ReadParts

set_option autoImplicit false

namespace StructuredText

open Reader

def singleSpaced (s : List Char) : List Char :=
  match s with
  | [] => []
  | c :: rest =>
    if isBlank c then ' ' :: singleSpaced (trimStart rest) else c :: singleSpaced rest
termination_by s.length
decreasing_by
  · exact Nat.lt_succ_of_le (trimStart_length_le rest)
  · exact Nat.lt_succ_self _

section SingleSpaced

variable {s : List Char} {c : Char}

theorem singleSpaced_nil : singleSpaced [] = [] := by
  rw [singleSpaced]

theorem singleSpaced_blank (blank : isBlank c = true) (s : List Char) :
    singleSpaced (c :: s) = ' ' :: singleSpaced (trimStart s) := by
  rw [singleSpaced, if_pos blank]

theorem singleSpaced_visible (visible : isBlank c = false) (s : List Char) :
    singleSpaced (c :: s) = c :: singleSpaced s := by
  rw [singleSpaced, if_neg (by simp [visible])]

theorem singleSpaced_append {word : List Char} (visible : ∀ c ∈ word, isBlank c = false)
    (s : List Char) : singleSpaced (word ++ s) = word ++ singleSpaced s := by
  induction word with
  | nil => rfl
  | cons c word ih =>
    rw [List.cons_append, singleSpaced_visible (visible c List.mem_cons_self),
      ih fun d member => visible d (List.mem_cons_of_mem c member), List.cons_append]

theorem trimStart_singleSpaced (s : List Char) :
    trimStart (singleSpaced s) = singleSpaced (trimStart s) := by
  fun_induction singleSpaced s with
  | case1 => simp [trimStart, singleSpaced_nil]
  | case2 c rest blank ih =>
    have stays : trimStart (trimStart rest) = trimStart rest :=
      trimStart_of_head (stops_dropWhile isBlank rest)
    have passes (d : Char) (isBlank : isBlank d = true) (t : List Char) :
        trimStart (d :: t) = trimStart t := List.dropWhile_cons_of_pos isBlank
    rw [passes ' ' (by decide), ih, stays, passes c blank]
  | case3 c rest visible ih =>
    have notBlank : isBlank c = false := by simpa using visible
    have first (t : List Char) : trimStart (c :: t) = c :: t :=
      trimStart_of_head (by simpa using notBlank)
    rw [first, first, singleSpaced_visible notBlank]

theorem dropWhile_singleSpaced {p : Char → Bool} (visible : ∀ c, p c = true → isBlank c = false)
    (s : List Char) : (singleSpaced s).dropWhile p = singleSpaced (s.dropWhile p) := by
  have stops {d : Char} (blank : isBlank d = true) : ¬ p d = true := by
    intro holds
    rw [visible d holds] at blank
    cases blank
  induction s with
  | nil => simp [singleSpaced_nil]
  | cons c s ih =>
    by_cases blank : isBlank c = true
    · rw [singleSpaced_blank blank, List.dropWhile_cons_of_neg (stops (by decide)),
        List.dropWhile_cons_of_neg (stops blank), singleSpaced_blank blank]
    · rw [Bool.not_eq_true] at blank
      by_cases holds : p c = true
      · rw [singleSpaced_visible blank, List.dropWhile_cons_of_pos holds,
          List.dropWhile_cons_of_pos holds, ih]
      · rw [singleSpaced_visible blank, List.dropWhile_cons_of_neg holds,
          List.dropWhile_cons_of_neg holds, singleSpaced_visible blank]

theorem prefix_singleSpaced_iff {word : List Char} (visible : ∀ c ∈ word, isBlank c = false)
    (s : List Char) : word <+: singleSpaced s ↔ word <+: s := by
  induction word generalizing s with
  | nil => simp
  | cons w word ih =>
    have wVisible := visible w List.mem_cons_self
    have differs {d : Char} (blank : isBlank d = true) : w ≠ d := by
      rintro rfl
      rw [wVisible] at blank
      cases blank
    cases s with
    | nil => rw [singleSpaced_nil]
    | cons c s =>
      by_cases blank : isBlank c = true
      · simp [singleSpaced_blank blank, List.cons_prefix_cons, differs blank,
          differs (show isBlank ' ' = true by decide)]
      · rw [Bool.not_eq_true] at blank
        rw [singleSpaced_visible blank, List.cons_prefix_cons, List.cons_prefix_cons,
          ih fun d member => visible d (List.mem_cons_of_mem w member)]

end SingleSpaced

namespace Reader

def PassesBlanks (read : Reader) : Prop :=
  ∀ s, read (singleSpaced s) = (read s).map singleSpaced

namespace PassesBlanks

variable {read next : Reader}

theorem bind (first : PassesBlanks read) (second : PassesBlanks next) :
    PassesBlanks fun s => (read s).bind next := by
  intro s
  simp only [first s]
  cases read s with
  | none => rfl
  | some mid => exact second mid

theorem or (first : PassesBlanks read) (second : PassesBlanks next) :
    PassesBlanks fun s => (read s).or (next s) := by
  intro s
  simp only [first s, second s]
  cases read s <;> rfl

theorem skip (passes : PassesBlanks read) : PassesBlanks fun s => read (trimStart s) := by
  intro s
  simp only [trimStart_singleSpaced]
  exact passes (trimStart s)

theorem behindFirst {p : Char → Prop} [DecidablePred p] (next : PassesBlanks read)
    (visible : ∀ c, p c → isBlank c = false) {first : Reader} (nil : first [] = none)
    (cons : ∀ c s, first (c :: s) = if p c then read s else none) : PassesBlanks first := by
  have stops {d : Char} (blank : isBlank d = true) : ¬ p d := by
    intro holds
    rw [visible d holds] at blank
    cases blank
  intro s
  cases s with
  | nil => rw [singleSpaced_nil, nil, Option.map_none]
  | cons c s =>
    by_cases blank : isBlank c = true
    · rw [singleSpaced_blank blank, cons, if_neg (stops (by decide)), cons, if_neg (stops blank),
        Option.map_none]
    · rw [singleSpaced_visible (Bool.not_eq_true _ ▸ blank), cons, cons]
      split
      · exact next s
      · rfl

end PassesBlanks

theorem passesBlanks_literal (keyword : String)
    (visible : (keyword.toList.all fun c => !isBlank c) = true) :
    PassesBlanks (literal keyword) := by
  have letters : ∀ c ∈ keyword.toList, isBlank c = false := by simpa using visible
  intro s
  simp only [literal, List.isPrefixOf_iff_prefix, prefix_singleSpaced_iff letters]
  split
  · rename_i begins
    obtain ⟨rest, rfl⟩ := begins
    simp [singleSpaced_append letters]
  · rfl

theorem passesBlanks_blanks : PassesBlanks blanks := by
  intro s
  cases s with
  | nil => simp [singleSpaced_nil, blanks]
  | cons c s =>
    by_cases blank : isBlank c = true
    · have stays : trimStart (trimStart s) = trimStart s :=
        trimStart_of_head (stops_dropWhile isBlank s)
      have space : isBlank ' ' = true := by decide
      simp [singleSpaced_blank blank, blanks, blank, space, trimStart_singleSpaced, stays]
    · simp [singleSpaced_visible (Bool.not_eq_true _ ▸ blank), blanks, blank]

theorem passesBlanks_upTo {close : Char} (visible : isBlank close = false) :
    PassesBlanks (upTo close) := by
  have other {c : Char} (blank : isBlank c = true) : c ≠ close := by
    rintro rfl
    rw [visible] at blank
    cases blank
  have passes (s : List Char) : upTo close (trimStart s) = upTo close s := by
    induction s with
    | nil => rfl
    | cons c s ih =>
      by_cases blank : isBlank c = true
      · rw [trimStart, List.dropWhile_cons_of_pos blank, ← trimStart, ih, upTo_cons,
          if_neg (other blank)]
      · rw [trimStart, List.dropWhile_cons_of_neg blank]
  intro s
  fun_induction singleSpaced s with
  | case1 => rfl
  | case2 c rest blank ih =>
    rw [upTo_cons, if_neg (other (by decide)), ih, passes, upTo_cons, if_neg (other blank)]
  | case3 c rest notBlank ih =>
    rw [upTo_cons, upTo_cons]
    split
    · rfl
    · exact ih

theorem passesBlanks_bracketed {opening closing : Char}
    (visible : isBlank opening = false ∧ isBlank closing = false) :
    PassesBlanks (bracketed opening closing) :=
  (passesBlanks_upTo visible.2).behindFirst (p := fun c => c = opening)
    (by rintro c rfl; exact visible.1) rfl fun _ _ => rfl

end Reader

namespace TypeExpr

theorem passesBlanks_wrapper : PassesBlanks wrapper := by
  have index : PassesBlanks (bracketed '[' ']') := passesBlanks_bracketed (by decide)
  have array : PassesBlanks wrapper.array :=
    (passesBlanks_literal "ARRAY" (by decide)).bind
      (index.skip.bind ((passesBlanks_literal "OF" (by decide)).skip.bind
        passesBlanks_blanks))
  have wordTo (keyword : String) (visible : (keyword.toList.all fun c => !isBlank c) = true) :
      PassesBlanks (wrapper.wordTo keyword) :=
    (passesBlanks_literal keyword visible).bind
      (passesBlanks_blanks.bind ((passesBlanks_literal "TO" (by decide)).bind
        passesBlanks_blanks))
  exact array.or ((wordTo "POINTER" (by decide)).or (wordTo "REFERENCE" (by decide)))

theorem passesBlanks_base : PassesBlanks base := by
  have index : PassesBlanks fun s =>
      (bracketed '[' ']' (trimStart s)).or (bracketed '(' ')' (trimStart s)) :=
    (passesBlanks_bracketed (by decide)).skip.or (passesBlanks_bracketed (by decide)).skip
  have behind : PassesBlanks fun s =>
      let after := s.dropWhile isTypeChar
      some (((bracketed '[' ']' (trimStart after)).or
        (bracketed '(' ')' (trimStart after))).getD after) := by
    intro s
    simp only [dropWhile_singleSpaced fun c => isBlank_of_type, index (s.dropWhile isTypeChar),
      Option.map_some, Option.getD_map]
  refine behind.behindFirst (p := fun c => isNameStart c = true) ?_ rfl fun _ _ => rfl
  intro c start
  exact isBlank_of_name (isNameChar_of_isNameStart start)

theorem passesBlanks_reader : PassesBlanks reader := by
  intro s
  fun_induction reader s with
  | case1 s rest wraps ih =>
    have shorter : wrapper (singleSpaced s) = some (singleSpaced rest) := by
      rw [passesBlanks_wrapper, wraps, Option.map_some]
    rw [reader_of_wrapper shorter, ih]
  | case2 s noWrapper =>
    have stillNone : wrapper (singleSpaced s) = none := by
      rw [passesBlanks_wrapper, noWrapper, Option.map_none]
    rw [reader_of_base stillNone, passesBlanks_base]

end TypeExpr

section Squash

theorem words_cons_blank {c : Char} (blank : isBlank c = true) (s : List Char) :
    words (c :: s) = words s :=
  runs_cons blank s

theorem words_trimStart (s : List Char) : words (trimStart s) = words s := by
  induction s with
  | nil => rfl
  | cons c s ih =>
    by_cases blank : isBlank c = true
    · rw [trimStart, List.dropWhile_cons_of_pos blank, ← trimStart, ih, words_cons_blank blank]
    · rw [trimStart, List.dropWhile_cons_of_neg blank]

theorem words_word_append {word : List Char} (nonempty : word ≠ [])
    (visible : ∀ c ∈ word, isBlank c = false) {s : List Char}
    (apart : ∀ d ∈ s.head?, isBlank d = true) : words (word ++ s) = word :: words s := by
  have split : words (word ++ s) = words word ++ words s := runs_append apart
  have alone : words word = [word] := runs_of_uncut nonempty visible
  rw [split, alone, List.singleton_append]

theorem intercalate_words (first second : List Char) (rest : List (List Char)) :
    [' '].intercalate (first :: second :: rest) =
      first ++ ' ' :: [' '].intercalate (second :: rest) := by
  simp [List.intercalate]

theorem last_of_suffix {t s : List Char} (suffix : t <:+ s) : ∀ c ∈ t.getLast?, c ∈ s.getLast? := by
  obtain ⟨front, rfl⟩ := suffix
  intro c last
  rw [List.getLast?_append, Option.mem_def.mp last]
  rfl

theorem words_ne_nil {s : List Char} (nonempty : s ≠ [])
    (last : ∀ c ∈ s.getLast?, isBlank c = false) : words s ≠ [] := by
  have isLast := List.getLast?_eq_some_getLast nonempty
  obtain ⟨word, isWord, -⟩ := exists_mem_words (last _ isLast) (List.getLast_mem nonempty)
  exact List.ne_nil_of_mem isWord

theorem exists_first_word {s : List Char} (nonempty : s ≠ [])
    (first : ∀ c ∈ s.head?, isBlank c = false) :
    ∃ word after, s = word ++ after ∧ word ≠ [] ∧ (∀ c ∈ word, isBlank c = false) ∧
      ∀ d ∈ after.head?, isBlank d = true := by
  refine ⟨s.takeWhile (!isBlank ·), s.dropWhile (!isBlank ·),
    List.takeWhile_append_dropWhile.symm, ?_, ?_, ?_⟩
  · obtain ⟨c, rest, rfl⟩ := List.exists_cons_of_ne_nil nonempty
    simp [first c rfl]
  · intro c member
    simpa using List.all_eq_true.mp List.all_takeWhile c member
  · intro d begins
    simpa using stops_dropWhile (!isBlank ·) s d begins

theorem squash_eq_singleSpaced {s : List Char} (first : ∀ c ∈ s.head?, isBlank c = false)
    (last : ∀ c ∈ s.getLast?, isBlank c = false) : squash s = singleSpaced s := by
  induction length : s.length using Nat.strong_induction_on generalizing s with
  | _ n ih =>
    by_cases nonempty : s = []
    · rw [nonempty, singleSpaced_nil]
      rfl
    obtain ⟨word, after, rfl, someWord, visible, apart⟩ := exists_first_word nonempty first
    rw [squash, words_word_append someWord visible apart, singleSpaced_append visible]
    cases after with
    | nil =>
      rw [singleSpaced_nil, List.append_nil]
      exact List.intercalate_singleton
    | cons b rest =>
      have blank : isBlank b = true := apart b rfl
      have behind : b :: rest <:+ word ++ b :: rest := List.suffix_append _ _
      have later : trimStart rest <:+ word ++ b :: rest :=
        (trimStart_suffix rest).trans ((List.suffix_cons b rest).trans behind)
      have shorter : (trimStart rest).length < n := by
        have atMost := trimStart_length_le rest
        rw [← length, List.length_append, List.length_cons]
        omega
      have squashed : squash (trimStart rest) = singleSpaced (trimStart rest) :=
        ih _ shorter (stops_dropWhile isBlank rest)
          (fun c ends => last c (last_of_suffix later c ends)) rfl
      have more : words (b :: rest) ≠ [] :=
        words_ne_nil (List.cons_ne_nil _ _) fun c ends => last c (last_of_suffix behind c ends)
      rw [words_cons_blank blank, ← words_trimStart] at more ⊢
      obtain ⟨second, others, areWords⟩ := List.exists_cons_of_ne_nil more
      rw [areWords, intercalate_words, ← areWords, ← squash, squashed, singleSpaced_blank blank]

theorem uncut_of_mem_splitWhere {cut : Char → Bool} {s piece : List Char}
    (member : piece ∈ splitWhere cut s) : ∀ c ∈ piece, cut c = false := by
  induction s generalizing piece with
  | nil =>
    rw [List.mem_singleton.mp member]
    simp
  | cons d s ih =>
    rw [splitWhere] at member
    split at member
    · rcases List.mem_cons.mp member with rfl | later
      · simp
      · exact ih later
    · rename_i uncut
      obtain ⟨first, pieces, shape⟩ := List.exists_cons_of_ne_nil (splitWhere_ne_nil cut s)
      rw [shape] at ih member
      rcases List.mem_cons.mp member with rfl | later
      · exact List.forall_mem_cons.mpr ⟨by simpa using uncut, ih List.mem_cons_self⟩
      · exact ih (List.mem_cons_of_mem _ later)

theorem words_squash (s : List Char) : words (squash s) = words s := by
  have joined (texts : List (List Char))
      (areWords : ∀ word ∈ texts, word ≠ [] ∧ ∀ c ∈ word, isBlank c = false) :
      words ([' '].intercalate texts) = texts := by
    induction texts with
    | nil => rfl
    | cons word texts ih =>
      obtain ⟨nonempty, visible⟩ := areWords word List.mem_cons_self
      have later := ih fun other member => areWords other (List.mem_cons_of_mem word member)
      cases texts with
      | nil =>
        rw [List.intercalate_singleton]
        exact runs_of_uncut nonempty visible
      | cons second texts =>
        have apart (t : List Char) : ∀ d ∈ (' ' :: t).head?, isBlank d = true := by
          rintro d ⟨⟩
          decide
        rw [intercalate_words, words_word_append nonempty visible (apart _),
          words_cons_blank (by decide), later]
  apply joined
  intro word member
  obtain ⟨isPiece, nonempty⟩ := List.mem_filter.mp member
  exact ⟨by simpa using nonempty, uncut_of_mem_splitWhere isPiece⟩

theorem squash_squash (s : List Char) : squash (squash s) = squash s := by
  rw [squash, words_squash, squash]

end Squash

namespace TypeExpr

variable {s : List Char}

theorem last_of_bracketed {opening closing : Char} (visible : isBlank closing = false)
    (reads : bracketed opening closing s = some []) : ∀ c ∈ s.getLast?, isBlank c = false := by
  cases s with
  | nil => cases reads
  | cons d s =>
    simp only [bracketed, Option.ite_none_right_eq_some, Option.map_eq_some_iff] at reads
    obtain ⟨-, ⟨inner, _⟩, split, rfl⟩ := reads
    rw [splitAtChar_eq split, ← List.cons_append, List.getLast?_concat]
    rintro c ⟨⟩
    exact visible

theorem last_of_base (reads : base s = some []) : ∀ c ∈ s.getLast?, isBlank c = false := by
  obtain ⟨front, behind, rfl, -, nonempty, inName, -, isIndex⟩ := base_eq_nil reads
  have index {opening closing : Char} (visible : isBlank closing = false)
      (read : bracketed opening closing (trimStart behind) = some []) :
      ∀ c ∈ (front ++ behind).getLast?, isBlank c = false := by
    have suffix : trimStart behind <:+ front ++ behind :=
      (trimStart_suffix behind).trans (List.suffix_append front behind)
    have isLast := List.getLast?_eq_some_getLast (bracketed_nonempty read)
    rw [last_of_suffix suffix _ isLast]
    rintro c ⟨⟩
    exact last_of_bracketed visible read _ isLast
  rcases isIndex with rfl | range | ⟨-, size⟩
  · rw [List.append_nil]
    exact fun c last => isBlank_of_type (inName c (List.mem_of_mem_getLast? last))
  · exact index (by decide) range
  · exact index (by decide) size

theorem last_of_reader (reads : reader s = some []) : ∀ c ∈ s.getLast?, isBlank c = false := by
  fun_induction reader s with
  | case1 s more wraps ih =>
    obtain ⟨c, rest, shape, -⟩ := head_of_reader reads
    have isLast := List.getLast?_eq_some_getLast (show more ≠ [] by simp [shape])
    rw [last_of_suffix (isLocal_wrapper.leaves wraps) _ isLast]
    rintro d ⟨⟩
    exact ih reads _ isLast
  | case2 s noWrapper => exact last_of_base reads

theorem typeText_squash (reads : reader s = some []) : TypeText (squash s) where
  reads := by
    obtain ⟨c, rest, shape, start⟩ := head_of_reader reads
    have first : ∀ d ∈ s.head?, isBlank d = false := by
      rw [shape]
      rintro d ⟨⟩
      exact isBlank_of_name (isNameChar_of_isNameStart start)
    rw [squash_eq_singleSpaced first (last_of_reader reads), passesBlanks_reader, reads,
      Option.map_some, singleSpaced_nil]
  squashed := squash_squash s

theorem typeText_of_read? {type : String} {rest : List Char} (read : read? s = some (type, rest)) :
    TypeText type.toList := by
  obtain ⟨behind, reads, same⟩ := Option.map_eq_some_iff.mp read
  obtain ⟨rfl, rfl⟩ := Prod.mk.inj same
  obtain ⟨part, rfl, alone⟩ := reader_part reads
  rw [consumed_append, String.toList_ofList]
  exact typeText_squash alone

end TypeExpr

end StructuredText
