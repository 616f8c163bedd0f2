import StructuredText.Proofs.CommentBytes

set_option autoImplicit false

namespace StructuredText

def slice? (s : List Char) (start stop : Nat) : Option (List Char) := do
  let first ← charsBefore? s start
  let last ← charsBefore? s stop
  if first ≤ last then some ((s.take last).drop first) else none

def bytesFrom? (line : List UInt8) (pos : Nat) : Option (List UInt8) :=
  if pos ≤ line.length then some (line.drop pos) else none

def difference? (a b : Nat) : Option Nat :=
  if b ≤ a then some (a - b) else none

def offsetOf? (pattern : List Char) : List Char → Option Nat
  | [] => if pattern = [] then some 0 else none
  | c :: s =>
    if pattern.isPrefixOf (c :: s) then some 0 else (offsetOf? pattern s).map (c.utf8Size + ·)

section Slices

variable {s : List Char}

theorem charsBefore?_eq_some_iff {offset count : Nat} :
    charsBefore? s offset = some count ↔
      ∃ front back, s = front ++ back ∧ width front = offset ∧ front.length = count := by
  constructor
  · intro found
    induction s generalizing offset count with
    | nil =>
      cases offset with
      | zero => exact ⟨[], [], rfl, rfl, Option.some.inj found⟩
      | succ offset => cases found
    | cons c s ih =>
      cases offset with
      | zero => exact ⟨[], c :: s, rfl, rfl, Option.some.inj found⟩
      | succ offset =>
        simp only [charsBefore?] at found
        split at found
        · obtain ⟨earlier, later, rfl⟩ := Option.map_eq_some_iff.mp found
          obtain ⟨front, back, rfl, isOffset, rfl⟩ := ih later
          exact ⟨c :: front, back, rfl, by rw [width_cons]; omega, rfl⟩
        · cases found
  · rintro ⟨front, back, rfl, rfl, rfl⟩
    exact charsBefore?_width front back

theorem slice?_eq_some_iff {t : List Char} {start stop : Nat} :
    slice? s start stop = some t ↔
      ∃ front back, s = front ++ t ++ back ∧ width front = start ∧ start + width t = stop := by
  constructor
  · intro sliced
    simp only [slice?, Option.bind_eq_bind, Option.bind_eq_some_iff] at sliced
    obtain ⟨first, isFirst, last, isLast, sliced⟩ := sliced
    split at sliced
    · rename_i ordered
      obtain ⟨front, rest, rfl, rfl, rfl⟩ := charsBefore?_eq_some_iff.mp isFirst
      obtain ⟨whole, back, split, rfl, rfl⟩ := charsBefore?_eq_some_iff.mp isLast
      obtain ⟨mid, rfl⟩ : front <+: whole :=
        List.prefix_of_prefix_length_le ⟨rest, rfl⟩ ⟨back, split.symm⟩ ordered
      obtain rfl : mid = t := by
        rw [split, List.take_left, List.drop_left] at sliced
        exact Option.some.inj sliced
      exact ⟨front, back, split, rfl, (width_append front mid).symm⟩
    · cases sliced
  · rintro ⟨front, back, rfl, rfl, rfl⟩
    have isFirst : charsBefore? (front ++ t ++ back) (width front) = some front.length := by
      rw [List.append_assoc, charsBefore?_width]
    have isLast : charsBefore? (front ++ t ++ back) (width front + width t) =
        some (front ++ t).length := by
      rw [← width_append, charsBefore?_width]
    have ordered : front.length ≤ (front ++ t).length := by simp
    simp only [slice?, isFirst, isLast, Option.bind_eq_bind, Option.bind_some, if_pos ordered,
      List.take_left, List.drop_left]

example : slice? ['$', 'é'] 2 3 = none := by decide

theorem slice?_middle (front t back : List Char) :
    slice? (front ++ t ++ back) (width front) (width (front ++ t)) = some t :=
  slice?_eq_some_iff.mpr ⟨front, back, rfl, rfl, (width_append front t).symm⟩

theorem slice?_right (front t : List Char) :
    slice? (front ++ t) (width front) (width (front ++ t)) = some t := by
  simpa using slice?_middle front t []

theorem bytesFrom?_width (front back : List Char) :
    bytesFrom? (bytes (front ++ back)) (width front) = some (bytes back) := by
  rw [bytes_append, ← length_bytes, bytesFrom?, List.drop_left, if_pos (by simp)]

theorem difference?_add (a b : Nat) : difference? (a + b) a = some b := by
  simp [difference?]

theorem offsetOf?_pair (a b : Char) (s : List Char) :
    offsetOf? [a, b] s = (splitAtPair a b s).map fun parts => width parts.1 := by
  fun_induction splitAtPair a b s with
  | case1 x y rest same =>
    obtain ⟨rfl, rfl⟩ := same
    simp [offsetOf?]
  | case2 x y rest other ih =>
    have noPrefix : ¬[a, b].isPrefixOf (x :: y :: rest) = true := by
      simp only [List.isPrefixOf, Bool.and_true, Bool.and_eq_true, beq_iff_eq]
      rintro ⟨rfl, rfl⟩
      exact other ⟨rfl, rfl⟩
    rw [offsetOf?, if_neg noPrefix, ih]
    cases splitAtPair a b (y :: rest) <;> rfl
  | case3 s short =>
    cases s with
    | nil => rfl
    | cons x s =>
      cases s with
      | nil => simp [offsetOf?, List.isPrefixOf]
      | cons y rest => exact absurd rfl (short x y rest)

theorem offsetOf?_char (close : Char) (s : List Char) :
    offsetOf? [close] s = (splitAtChar close s).map fun parts => width parts.1 := by
  fun_induction splitAtChar close s with
  | case1 => rfl
  | case2 rest => simp [offsetOf?]
  | case3 c rest other ih =>
    have noPrefix : ¬[close].isPrefixOf (c :: rest) = true := by
      simpa [List.isPrefixOf] using Ne.symm other
    rw [offsetOf?, if_neg noPrefix, ih]
    cases splitAtChar close rest <;> rfl

end Slices

def quotedStep (close byte : UInt8) : Nat × Option UInt8 :=
  if byte = '$'.toUInt8 then (2, some close)
  else if byte = close then (1, none)
  else (1, some close)

theorem quotedStep_pos (close byte : UInt8) : 0 < (quotedStep close byte).1 := by
  unfold quotedStep
  split
  · exact Nat.two_pos
  · split <;> exact Nat.one_pos

theorem width_concat_ascii {c : Char} (ascii : c.toNat < 128) (before : List Char) :
    width (before ++ [c]) = width before + 1 := by
  rw [← length_bytes, bytes_append, List.length_append, length_bytes, bytes_cons,
    encode_of_ascii ascii]
  rfl

section Bytes

variable {line before s : List Char} {c : Char} (whole : line = before ++ c :: s)

include whole

theorem inside_of_split : width before < (bytes line).length := by
  have positive := c.utf8Size_pos
  simp only [whole, length_bytes, width_append, width_cons]
  omega

theorem getElem_ascii (ascii : c.toNat < 128) (inside : width before < (bytes line).length) :
    (bytes line)[width before] = c.toUInt8 := by
  subst whole
  have encoded : bytes (before ++ c :: s) = bytes before ++ c.toUInt8 :: bytes s := by
    simp [encode_of_ascii ascii]
  simp only [encoded, ← length_bytes before]
  exact List.getElem_append_right (Nat.le_refl _) |>.trans (by simp)

theorem getElem_wide (wide : ¬c.toNat < 128) {pos : Nat} (above : width before ≤ pos)
    (below : pos < width before + c.utf8Size) (inside : pos < (bytes line).length) :
    128 ≤ (bytes line)[pos].toNat := by
  subst whole
  have length := String.length_utf8EncodeChar c
  apply wide_of_mem_encode wide
  simp only [bytes_append, bytes_cons]
  rw [List.getElem_append_right (by rw [length_bytes]; exact above),
    List.getElem_append_left (by rw [length_bytes, length]; omega)]
  exact List.getElem_mem _

end Bytes

theorem ascii_of_quoteClose? {c close : Char} (opens : quoteClose? c = some close) :
    close.toNat < 128 := by
  have small : (['\x7d', '\x27', '\x22'].all fun c => decide (c.toNat < 128)) = true := by decide
  simpa using List.all_eq_true.mp small close (quoteClose?_mem opens)

structure ReadsQuotes {α : Type} (line : List Char) (scan : Option UInt8 → Nat → α) : Prop where
  quoted : ∀ close pos, (inside : pos < (bytes line).length) →
    scan (some close) pos =
      scan (quotedStep close (bytes line)[pos]).2 (pos + (quotedStep close (bytes line)[pos]).1)
  wide : ∀ pos, (inside : pos < (bytes line).length) → 128 ≤ (bytes line)[pos].toNat →
    scan none pos = scan none (pos + 1)
  ends : ∀ quote other pos past, (bytes line).length ≤ pos → (bytes line).length ≤ past →
    scan quote pos = scan other past

namespace ReadsQuotes

variable {α : Type} {line : List Char} {scan : Option UInt8 → Nat → α}
  (reads : ReadsQuotes line scan)

include reads

theorem across (quote : Option Char) (ascii : ∀ close ∈ quote, close.toNat < 128)
    {before s : List Char} {c : Char} (whole : line = before ++ c :: s) (wide : ¬c.toNat < 128)
    {pos : Nat} (above : width before ≤ pos) (below : pos ≤ width (before ++ [c])) :
    scan (quote.map Char.toUInt8) pos = scan (quote.map Char.toUInt8) (width (before ++ [c])) := by
  rw [width_append, width_cons, width_nil, Nat.add_zero] at below ⊢
  have bound : width before + c.utf8Size ≤ (bytes line).length := by
    simp [whole, length_bytes]
  have step (pos : Nat) (above : width before ≤ pos) (below : pos < width before + c.utf8Size) :
      scan (quote.map Char.toUInt8) pos = scan (quote.map Char.toUInt8) (pos + 1) := by
    have inside : pos < (bytes line).length := by omega
    have isWide := getElem_wide whole wide above below inside
    cases quote with
    | none => exact reads.wide pos inside isWide
    | some close =>
      have goesOn : quotedStep close.toUInt8 (bytes line)[pos] = (1, some close.toUInt8) := by
        have noDollar : (bytes line)[pos] ≠ '$'.toUInt8 := ne_of_wide isWide (by decide)
        have noClose := ne_of_wide isWide (ascii close rfl)
        rw [quotedStep, if_neg noDollar, if_neg noClose]
      have moved := reads.quoted close.toUInt8 pos inside
      rw [goesOn] at moved
      exact moved
  obtain ⟨count, isEnd⟩ := Nat.exists_eq_add_of_le below
  induction count generalizing pos with
  | zero => rw [isEnd, Nat.add_zero]
  | succ count ih => rw [step pos above (by omega), ih (by omega) (by omega) (by omega)]

variable {close : Char} (ascii : close.toNat < 128) {before s : List Char} {c : Char}

include ascii

theorem next (whole : line = before ++ c :: s) (noDollar : c ≠ '$') (other : c ≠ close) :
    scan (some close.toUInt8) (width before) =
      scan (some close.toUInt8) (width (before ++ [c])) := by
  by_cases also : c.toNat < 128
  · have inside := inside_of_split whole
    have goesOn : quotedStep close.toUInt8 c.toUInt8 = (1, some close.toUInt8) := by
      rw [quotedStep, if_neg fun same => noDollar ((toUInt8_eq_iff also (by decide)).mp same),
        if_neg fun same => other ((toUInt8_eq_iff also ascii).mp same)]
    have moved := reads.quoted close.toUInt8 (width before) inside
    rwa [getElem_ascii whole also, goesOn, ← width_concat_ascii also] at moved
  · exact reads.across (some close) (by simpa using ascii) whole also (Nat.le_refl _) (by simp)

theorem escape (whole : line = before ++ '$' :: c :: s) :
    scan (some close.toUInt8) (width before) =
      scan (some close.toUInt8) (width (before ++ ['$', c])) := by
  have dollar : '$'.toNat < 128 := by decide
  have inside := inside_of_split whole
  have moved := reads.quoted close.toUInt8 (width before) inside
  have behind : width before + 2 = width (before ++ ['$']) + 1 := by
    rw [width_concat_ascii dollar]
  have later : line = (before ++ ['$']) ++ c :: s := by simp [whole]
  rw [getElem_ascii whole dollar, quotedStep, if_pos rfl] at moved
  rw [moved, behind]
  have split : before ++ ['$', c] = (before ++ ['$']) ++ [c] := by simp
  rw [split]
  by_cases also : c.toNat < 128
  · rw [width_concat_ascii also]
  · have positive := c.utf8Size_pos
    exact reads.across (some close) (by simpa using ascii) later also (by omega)
      (by simp only [width_append, width_cons, width_nil]; omega)

theorem splitQuoted (noDollar : close ≠ '$') (whole : line = before ++ s) :
    scan (some close.toUInt8) (width before) =
      scan none (width (before ++ (StructuredText.splitQuoted close s).1)) := by
  fun_induction StructuredText.splitQuoted close s generalizing before with
  | case1 =>
    exact reads.ends _ _ _ _ (by simp [whole, length_bytes]) (by simp [whole, length_bytes])
  | case2 c rest quoted after split ih =>
    rw [split] at ih
    rw [reads.escape ascii whole, ih (by simp [whole]), List.append_assoc]
    rfl
  | case3 rest notEscaped =>
    have closes : quotedStep close.toUInt8 close.toUInt8 = (1, none) := by
      rw [quotedStep, if_neg fun same => noDollar ((toUInt8_eq_iff ascii (by decide)).mp same),
        if_pos rfl]
    have moved := reads.quoted close.toUInt8 (width before) (inside_of_split whole)
    rwa [getElem_ascii whole ascii, closes, ← width_concat_ascii ascii] at moved
  | case4 c rest notEscaped other quoted after split ih =>
    rw [split] at ih
    by_cases escape : c = '$'
    · cases rest with
      | nil =>
        -- The dollar sign ends the line, and the scan is past it.
        cases split
        subst escape
        have dollar : '$'.toNat < 128 := by decide
        have moved := reads.quoted close.toUInt8 (width before) (inside_of_split whole)
        rw [getElem_ascii whole dollar, quotedStep, if_pos rfl] at moved
        rw [moved]
        have past : (bytes line).length ≤ width before + 2 := by
          rw [whole, length_bytes, width_concat_ascii dollar]
          omega
        exact reads.ends _ _ _ _ past (by simp [whole, length_bytes])
      | cons d rest => exact absurd rfl (notEscaped d rest escape)
    · rw [reads.next ascii whole escape other, ih (by simp [whole]), List.append_assoc]
      rfl

end ReadsQuotes

end StructuredText
