import StructuredText.Proofs.DeclarationText
import StructuredText.Proofs.PlainDeclaration

set_option autoImplicit false

namespace StructuredText

namespace Reader

structure IsLocal (read : Reader) : Prop where
  leaves : ∀ {s rest}, read s = some rest → rest <:+ s
  cut : ∀ {s rest u}, read (s ++ u) = some (rest ++ u) → read s = some rest

namespace IsLocal

variable {read next : Reader} {s rest : List Char}

theorem part (isLocal : IsLocal read) (reads : read s = some rest) :
    ∃ part, s = part ++ rest ∧ read part = some [] := by
  obtain ⟨part, rfl⟩ := isLocal.leaves reads
  have alone : read part = some [] := isLocal.cut reads
  exact ⟨part, rfl, alone⟩

theorem bind (first : IsLocal read) (second : IsLocal next) :
    IsLocal fun s => (read s).bind next where
  leaves reads := by
    obtain ⟨mid, isMid, isRest⟩ := Option.bind_eq_some_iff.mp reads
    exact (second.leaves isRest).trans (first.leaves isMid)
  cut {s rest u} reads := by
    obtain ⟨mid, isMid, isRest⟩ := Option.bind_eq_some_iff.mp reads
    obtain ⟨part, rfl⟩ := second.leaves isRest
    rw [← List.append_assoc] at isMid isRest
    exact Option.bind_eq_some_iff.mpr ⟨part ++ rest, first.cut isMid, second.cut isRest⟩

theorem or (first : IsLocal read) (second : IsLocal next)
    (disjoint : ∀ {s rest}, next s = some rest → read s = none) :
    IsLocal fun s => (read s).or (next s) where
  leaves reads := by
    rcases Option.or_eq_some_iff.mp reads with here | ⟨-, there⟩
    · exact first.leaves here
    · exact second.leaves there
  cut reads := by
    rcases Option.or_eq_some_iff.mp reads with here | ⟨-, there⟩
    · exact Option.or_eq_some_iff.mpr (.inl (first.cut here))
    · have shorter := second.cut there
      exact Option.or_eq_some_iff.mpr (.inr ⟨disjoint shorter, shorter⟩)

theorem behindFirst {p : Char → Prop} [DecidablePred p] (next : IsLocal read)
    {first : Reader} (nil : first [] = none)
    (cons : ∀ c s, first (c :: s) = if p c then read s else none) : IsLocal first where
  leaves {s rest} reads := by
    cases s with
    | nil =>
      rw [nil] at reads
      cases reads
    | cons c s =>
      rw [cons, Option.ite_none_right_eq_some] at reads
      exact (next.leaves reads.2).trans (List.suffix_cons c s)
  cut {s rest u} reads := by
    cases s with
    | nil =>
      cases u with
      | nil =>
        rw [List.append_nil, nil] at reads
        cases reads
      | cons c u =>
        -- More would be left than was there.
        rw [List.nil_append, cons, Option.ite_none_right_eq_some] at reads
        have shorter := (next.leaves reads.2).length_le
        simp only [List.length_append, List.length_cons] at shorter
        omega
    | cons c s =>
      rw [List.cons_append, cons, Option.ite_none_right_eq_some] at reads
      rw [cons, if_pos reads.1]
      exact next.cut reads.2

end IsLocal

theorem isLocal_dropWhile (p : Char → Bool) : IsLocal fun s => some (s.dropWhile p) where
  leaves := by
    rintro s rest ⟨⟩
    exact List.dropWhile_suffix p
  cut {s rest u} reads := by
    have dropped : (s ++ u).dropWhile p = rest ++ u := Option.some.inj reads
    rw [List.dropWhile_append] at dropped
    split at dropped
    · rename_i empty
      have shorter := (List.dropWhile_suffix p (l := u)).length_le
      rw [dropped, List.length_append] at shorter
      have noRest : rest = [] := List.eq_nil_of_length_eq_zero (by omega)
      rw [noRest, List.isEmpty_iff.mp empty]
    · rw [List.append_cancel_right dropped]

theorem isLocal_literal (keyword : String) : IsLocal (literal keyword) where
  leaves reads := by
    rw [literal_eq_some reads]
    exact List.suffix_append _ _
  cut {s rest u} reads := by
    have whole := literal_eq_some reads
    rw [← List.append_assoc] at whole
    rw [List.append_cancel_right whole, literal_append]

def upTo (close : Char) : Reader := fun s =>
  (splitAtChar close s).map Prod.snd

theorem upTo_cons (close c : Char) (s : List Char) :
    upTo close (c :: s) = if c = close then some s else upTo close s := by
  simp only [upTo, splitAtChar]
  split
  · rfl
  · rw [Option.map_map]
    rfl

theorem isLocal_upTo (close : Char) : IsLocal (upTo close) where
  leaves reads := by
    obtain ⟨⟨before, rest⟩, split, rfl⟩ := Option.map_eq_some_iff.mp reads
    rw [splitAtChar_eq split]
    exact (List.suffix_cons close rest).trans (List.suffix_append before _)
  cut {s rest u} reads := by
    obtain ⟨⟨before, _⟩, split, rfl⟩ := Option.map_eq_some_iff.mp reads
    have whole := splitAtChar_eq split
    rw [← List.cons_append, ← List.append_assoc] at whole
    rw [List.append_cancel_right whole, upTo,
      splitAtChar_of_absent (splitAtChar_absent split)]
    rfl

theorem isLocal_trimStart : IsLocal fun s => some (trimStart s) :=
  isLocal_dropWhile isBlank

theorem isLocal_blanks : IsLocal blanks :=
  isLocal_trimStart.behindFirst (p := fun c => isBlank c = true) rfl fun _ _ => rfl

theorem isLocal_name : IsLocal name :=
  (isLocal_dropWhile isNameChar).behindFirst (p := fun c => isNameStart c = true) rfl
    fun _ _ => rfl

theorem isLocal_bracketed (opening closing : Char) : IsLocal (bracketed opening closing) :=
  (isLocal_upTo closing).behindFirst (p := fun c => c = opening) rfl fun _ _ => rfl

theorem IsLocal.skip {read : Reader} (isLocal : IsLocal read) :
    IsLocal fun s => read (trimStart s) :=
  isLocal_trimStart.bind isLocal

theorem isName_part {s rest : List Char} (reads : name s = some rest) :
    isName (consumed s rest) = true := by
  obtain ⟨part, rfl, alone⟩ := isLocal_name.part reads
  rw [consumed_append, isName, alone]
  rfl

end Reader

open Reader

namespace TypeExpr

variable {s rest : List Char}

theorem isLocal_array : IsLocal wrapper.array :=
  (isLocal_literal "ARRAY").bind
    ((isLocal_bracketed '[' ']').skip.bind ((isLocal_literal "OF").skip.bind isLocal_blanks))

theorem isLocal_wordTo (keyword : String) : IsLocal (wrapper.wordTo keyword) :=
  (isLocal_literal keyword).bind
    (isLocal_blanks.bind ((isLocal_literal "TO").bind isLocal_blanks))

theorem isLocal_wrapper : IsLocal wrapper := by
  have pointers : IsLocal fun s =>
      (wrapper.wordTo "POINTER" s).or (wrapper.wordTo "REFERENCE" s) := by
    refine (isLocal_wordTo "POINTER").or (isLocal_wordTo "REFERENCE") ?_
    intro s rest reads
    obtain ⟨behind, rfl⟩ := literal_of_wordTo reads
    simp [wrapper.wordTo, literal]
  refine isLocal_array.or pointers ?_
  intro s rest reads
  rcases Option.or_eq_some_iff.mp reads with pointer | ⟨-, reference⟩
  · obtain ⟨behind, rfl⟩ := literal_of_wordTo pointer
    simp [wrapper.array, literal]
  · obtain ⟨behind, rfl⟩ := literal_of_wordTo reference
    simp [wrapper.array, literal]

theorem isLocal_index : IsLocal fun s =>
    (bracketed '[' ']' (trimStart s)).or (bracketed '(' ')' (trimStart s)) := by
  refine (isLocal_bracketed '[' ']').skip.or (isLocal_bracketed '(' ')').skip ?_
  intro s rest reads
  apply bracketed_of_head
  cases trimmed : trimStart s with
  | nil => simp
  | cons c after =>
    simp only [trimmed, bracketed, Option.ite_none_right_eq_some] at reads
    simp [reads.1]

theorem base_part (reads : base s = some rest) :
    ∃ part, s = part ++ rest ∧ base part = some [] := by
  obtain ⟨front, after, rfl, starts, nonempty, inName, apart, ends⟩ := base_eq_some reads
  cases index : (bracketed '[' ']' (trimStart after)).or (bracketed '(' ')' (trimStart after)) with
  | none =>
    obtain rfl : after = rest := by rwa [index] at ends
    have alone := base_append (t := []) starts nonempty inName (by simp)
    rw [List.append_nil] at alone
    exact ⟨front, rfl, alone⟩
  | some behind =>
    obtain rfl : behind = rest := by rwa [index] at ends
    obtain ⟨part, rfl, alone⟩ := isLocal_index.part index
    refine ⟨front ++ part, (List.append_assoc _ _ _).symm, ?_⟩
    have partApart : ∀ d ∈ part.head?, isTypeChar d = false := by
      intro d first
      apply apart
      rw [List.head?_append, Option.mem_def.mp first]
      rfl
    rw [base_append starts nonempty inName partApart, alone]
    rfl

theorem reader_part (reads : reader s = some rest) :
    ∃ part, s = part ++ rest ∧ reader part = some [] := by
  fun_induction reader s with
  | case1 s more wraps ih =>
    obtain ⟨front, rfl, -⟩ := isLocal_wrapper.part wraps
    obtain ⟨part, rfl, alone⟩ := ih reads
    rw [← List.append_assoc] at wraps
    refine ⟨front ++ part, (List.append_assoc _ _ _).symm, ?_⟩
    rw [reader_of_wrapper (isLocal_wrapper.cut wraps), alone]
  | case2 s noWrapper =>
    obtain ⟨part, rfl, alone⟩ := base_part reads
    have stillNone : wrapper part = none := by
      cases wraps : wrapper part with
      | none => rfl
      | some more =>
        rw [wrapper_append wraps] at noWrapper
        cases noWrapper
    exact ⟨part, rfl, by rw [reader_of_base stillNone, alone]⟩

end TypeExpr

namespace Assignment

theorem access_eq : access = fun s =>
    ((literal "." (trimStart s)).bind fun rest => name (trimStart rest)).or
      (bracketed '[' ']' (trimStart s)) := by
  funext s
  rw [access]
  split
  · rename_i rest shape
    rw [shape]
    simp [literal, bracketed]
  · rename_i noDot
    have noField : literal "." (trimStart s) = none := by
      refine literal_of_head (by decide) ?_
      intro c first isDot
      obtain ⟨rest, shape⟩ := List.head?_eq_some_iff.mp first
      obtain rfl : '.' = c := Option.some.inj isDot
      exact noDot rest shape
    simp [noField]

theorem isLocal_access : IsLocal access := by
  have field : IsLocal fun s => (literal "." s).bind fun rest => name (trimStart rest) :=
    (isLocal_literal ".").bind isLocal_name.skip
  rw [access_eq]
  refine field.skip.or (isLocal_bracketed '[' ']').skip ?_
  intro s rest reads
  cases trimmed : trimStart s with
  | nil => simp [literal]
  | cons c after =>
    simp only [trimmed, bracketed, Option.ite_none_right_eq_some] at reads
    simp [literal, reads.1]

theorem afterAccesses_part (s : List Char) :
    ∃ part, s = part ++ afterAccesses s ∧ afterAccesses part = [] := by
  fun_induction afterAccesses s with
  | case1 s more read ih =>
    obtain ⟨part, whole, alone⟩ := ih
    obtain ⟨front, rfl⟩ := isLocal_access.leaves read
    rw [whole, ← List.append_assoc] at read
    refine ⟨front ++ part, by rw [List.append_assoc, ← whole], ?_⟩
    rw [afterAccesses_of_some (isLocal_access.cut read), alone]
  | case2 s none => exact ⟨[], rfl, afterAccesses_of_none rfl⟩

theorem target_part {s behind : List Char} (named : Reader.name s = some behind) :
    (Reader.name (consumed s (afterAccesses behind))).map afterAccesses = some [] := by
  obtain ⟨part, whole, alone⟩ := afterAccesses_part behind
  generalize afterAccesses behind = after at whole ⊢
  obtain ⟨front, rfl⟩ := isLocal_name.leaves named
  rw [whole, ← List.append_assoc] at named ⊢
  rw [consumed_append, isLocal_name.cut named, Option.map_some, alone]

end Assignment

end StructuredText
