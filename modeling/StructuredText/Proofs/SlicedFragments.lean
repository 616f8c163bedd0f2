import StructuredText.Proofs.AtomicFragments
import StructuredText.Proofs.Slices

set_option autoImplicit false

namespace StructuredText

def onByte (isClass : Char → Bool) (byte : UInt8) : Bool :=
  isClass (Char.ofUInt8 byte)

def skipWhile (isClass : UInt8 → Bool) (source : List UInt8) (pos : Nat) : Nat :=
  if inside : pos < source.length then
    if isClass source[pos] then skipWhile isClass source (pos + 1) else pos
  else pos
termination_by source.length - pos

section Classes

variable {isClass : Char → Bool} (ascii : ∀ c, isClass c = true → c.toNat < 128)

theorem onByte_ascii {c : Char} (small : c.toNat < 128) : onByte isClass c.toUInt8 = isClass c := by
  have same : Char.ofUInt8 c.toUInt8 = c :=
    Char.toNat_inj.mp ((UInt8.toNat_toUInt32 _).trans (toNat_toUInt8 small))
  rw [onByte, same]

include ascii in
theorem onByte_wide {byte : UInt8} (wide : 128 ≤ byte.toNat) : onByte isClass byte = false := by
  rw [onByte, Bool.eq_false_iff]
  intro inClass
  have small : byte.toUInt32.toNat < 128 := ascii _ inClass
  rw [UInt8.toNat_toUInt32] at small
  omega

theorem le_skipWhile (isClass : UInt8 → Bool) (source : List UInt8) (pos : Nat) :
    pos ≤ skipWhile isClass source pos := by
  fun_induction skipWhile isClass source pos <;> omega

theorem lt_skipWhile {isClass : UInt8 → Bool} {source : List UInt8} {pos : Nat}
    (inside : pos < source.length) (inClass : isClass source[pos] = true) :
    pos < skipWhile isClass source pos := by
  rw [skipWhile, dif_pos inside, if_pos inClass]
  exact le_skipWhile isClass source (pos + 1)

theorem inside_of_skipWhile {isClass : UInt8 → Bool} {source : List UInt8} {pos : Nat}
    (moves : pos < skipWhile isClass source pos) : pos < source.length := by
  by_contra outside
  rw [skipWhile, dif_neg outside] at moves
  omega

include ascii in
theorem skipWhile_width {line before s : List Char} (whole : line = before ++ s) :
    skipWhile (onByte isClass) (bytes line) (width before) =
      width (before ++ s.takeWhile isClass) := by
  induction s generalizing before with
  | nil =>
    rw [skipWhile, dif_neg (by simp [whole, length_bytes])]
    simp
  | cons c s ih =>
    have inside := inside_of_split whole
    by_cases inClass : isClass c = true
    · have small := ascii c inClass
      have goesOn : onByte isClass (bytes line)[width before] = true := by
        rw [getElem_ascii whole small, onByte_ascii small, inClass]
      rw [skipWhile, dif_pos inside, if_pos goesOn, ← width_concat_ascii small,
        ih (by simp [whole]), List.takeWhile_cons_of_pos inClass]
      simp
    · have stops : ¬onByte isClass (bytes line)[width before] = true := by
        by_cases small : c.toNat < 128
        · rwa [getElem_ascii whole small, onByte_ascii small]
        · have positive := c.utf8Size_pos
          have wide := getElem_wide whole small (Nat.le_refl _) (by omega) inside
          simp [onByte_wide ascii wide]
      rw [skipWhile, dif_pos inside, if_neg stops, List.takeWhile_cons_of_neg inClass]
      simp

include ascii in
theorem onByte_behind {line before s : List Char} {c : Char}
    (whole : line = (before ++ [c]) ++ s) (outside : isClass c = false)
    (inside : width (before ++ [c]) - 1 < (bytes line).length) :
    onByte isClass (bytes line)[width (before ++ [c]) - 1] = false := by
  have split : line = before ++ c :: s := by simp [whole]
  by_cases small : c.toNat < 128
  · simp only [width_concat_ascii small, Nat.add_sub_cancel, getElem_ascii split small]
    rw [onByte_ascii small, outside]
  · have positive := c.utf8Size_pos
    have isWidth : width (before ++ [c]) = width before + c.utf8Size := by simp
    exact onByte_wide ascii (getElem_wide split small (by omega) (by omega) inside)

theorem ascii_of_name (c : Char) (isName : isNameChar c = true) : c.toNat < 128 :=
  Nat.lt_of_le_of_lt (toNat_of_name isName).2 (by decide)

theorem ascii_of_spacing (c : Char) (spacing : isSpacing c = true) : c.toNat < 128 := by
  simp only [isSpacing, Bool.or_eq_true, beq_iff_eq] at spacing
  rcases spacing with (((rfl | rfl) | rfl) | rfl) | rfl <;> decide

end Classes

section Lexemes

theorem quoteClose?_cases {c close : Char} (opens : quoteClose? c = some close) :
    (c = '\x27' ∨ c = '\x22') ∧ close = c ∨ c = '\x7b' ∧ close = '\x7d' := by
  simp only [quoteClose?, stringClose?] at opens
  split at opens
  · exact .inr ⟨‹_›, (Option.some.inj opens).symm⟩
  · split at opens
    · exact .inl ⟨‹_›, (Option.some.inj opens).symm⟩
    · cases opens

theorem Lexeme.next_eq_semicolon_iff (c : Char) (s : List Char) :
    (next c s).1 = semicolon ↔ c = ';' := by
  rcases next_cases c s with
    ⟨close, opens, reads⟩ | ⟨isName, reads⟩ | ⟨rfl, reads⟩ | ⟨-, other, -, reads⟩ <;> rw [reads]
  · refine iff_of_false nofun ?_
    rintro rfl
    cases opens
  · refine iff_of_false nofun ?_
    rintro rfl
    cases isName
  · exact iff_of_true rfl rfl
  · exact iff_of_false nofun other

def ReadTo (code s : List Char) (ls : List Lexeme) : Prop :=
  ∃ before, lexemes code = before ++ ls ∧ before.flatMap Lexeme.text = s

namespace ReadTo

variable {code s : List Char} {ls : List Lexeme}

theorem whole (readTo : ReadTo code s ls) : code = s ++ ls.flatMap Lexeme.text := by
  obtain ⟨before, split, rfl⟩ := readTo
  rw [← List.flatMap_append, ← split, flatMap_text_lexemes]

theorem append {taken : List Lexeme} (readTo : ReadTo code s (taken ++ ls)) :
    ReadTo code (s ++ taken.flatMap Lexeme.text) ls := by
  obtain ⟨before, split, rfl⟩ := readTo
  exact ⟨before ++ taken, by rw [split, List.append_assoc], List.flatMap_append⟩

variable {l : Lexeme}

theorem cons (readTo : ReadTo code s (l :: ls)) : ReadTo code (s ++ l.text) ls := by
  have read : ReadTo code s ([l] ++ ls) := readTo
  simpa using read.append

theorem next (readTo : ReadTo code s (l :: ls)) :
    ∃ c t, (l :: ls).flatMap Lexeme.text = c :: t ∧
      Lexeme.next c t = (l, ls.flatMap Lexeme.text) := by
  obtain ⟨before, split, -⟩ := readTo
  have again := lexemes_right split
  cases isText : (l :: ls).flatMap Lexeme.text with
  | nil => simp [isText, lexemes] at again
  | cons c t =>
    rw [isText, lexemes] at again
    obtain ⟨first, later⟩ := List.cons.inj again
    refine ⟨c, t, rfl, Prod.ext first ?_⟩
    rw [← later, flatMap_text_lexemes]

theorem word {w : List Char} (readTo : ReadTo code s (.word w :: ls)) :
    IsWordIn s w (ls.flatMap Lexeme.text) := by
  obtain ⟨before, split, rfl⟩ := readTo
  exact isWordIn_of_lexemes split

end ReadTo

end Lexemes

namespace Bytewise

def push? (code : List Char) (found : List Fragment) (start stop : Nat) : Option (List Fragment) :=
  if stop ≤ start then some found
  else do
    let raw ← slice? code start stop
    let text := trim raw
    if text = [] ∨ text = [';'] then some found
    else do
      let leading ← difference? (width raw) (width (trimStart raw))
      some (found ++ [⟨text, start + leading, start + leading + width text⟩])

def skipSemicolon (source : List UInt8) (pos : Nat) : Nat :=
  let next := skipWhile (onByte isSpacing) source pos
  if source[next]? = some ';'.toUInt8 then next + 1 else pos

def skipQualifiers? (code : List Char) (pos : Nat) : Option Nat :=
  let next := skipWhile (onByte isSpacing) (bytes code) pos
  let stop := skipWhile (onByte isNameChar) (bytes code) next
  if _isWord : next < stop then do
    let word ← slice? code next stop
    if sectionQualifiers.any fun keyword => keyword.toList == word then skipQualifiers? code stop
    else some pos
  else some pos
termination_by (bytes code).length - pos
decreasing_by
  have behind := le_skipWhile (onByte isSpacing) (bytes code) pos
  have inside := inside_of_skipWhile _isWord
  exact Nat.sub_lt_sub_left (Nat.lt_of_le_of_lt behind inside) (Nat.lt_of_le_of_lt behind _isWord)

def skipAttached? (cut : Cut) (code : List Char) (pos : Nat) : Option Nat :=
  match cut with
  | .aroundSection => skipQualifiers? code pos
  | .aroundClosing => some (skipSemicolon (bytes code) pos)
  | .around | .before | .after => some pos

theorem le_skipQualifiers? {code : List Char} {pos stop : Nat}
    (skips : skipQualifiers? code pos = some stop) : pos ≤ stop := by
  fun_induction skipQualifiers? code pos with
  | case1 pos next isEnd isWord ih =>
    have behind := le_skipWhile (onByte isSpacing) (bytes code) pos
    rw [Option.bind_eq_bind, Option.bind_eq_some_iff] at skips
    obtain ⟨word, -, skips⟩ := skips
    split at skips
    · have later := ih skips
      omega
    · exact Nat.le_of_eq (Option.some.inj skips)
  | case2 pos next isEnd noWord => exact Nat.le_of_eq (Option.some.inj skips)

theorem le_skipAttached? {cut : Cut} {code : List Char} {pos stop : Nat}
    (skips : skipAttached? cut code pos = some stop) : pos ≤ stop := by
  cases cut with
  | aroundSection => exact le_skipQualifiers? skips
  | aroundClosing =>
    have behind := le_skipWhile (onByte isSpacing) (bytes code) pos
    cases skips
    simp only [skipSemicolon]
    split <;> omega
  | around | before | after => exact Nat.le_of_eq (Option.some.inj skips)

-- Goes over a code from a byte that is or is not inside a string or a pragma. The piece from
-- `start` on is not cut off yet.
def cut? (code : List Char) (start : Nat) (found : List Fragment) (quote : Option UInt8)
    (pos : Nat) : Option (List Fragment) :=
  if inside : pos < (bytes code).length then
    match quote with
    | some close =>
      cut? code start found (quotedStep close (bytes code)[pos]).2
        (pos + (quotedStep close (bytes code)[pos]).1)
    | none =>
      if (bytes code)[pos] = '\x27'.toUInt8 ∨ (bytes code)[pos] = '\x22'.toUInt8 then
        cut? code start found (some (bytes code)[pos]) (pos + 1)
      else if (bytes code)[pos] = '\x7b'.toUInt8 then
        cut? code start found (some '\x7d'.toUInt8) (pos + 1)
      else if (bytes code)[pos] = ';'.toUInt8 then do
        let found ← push? code found start (pos + 1)
        cut? code (pos + 1) found none (pos + 1)
      else if isWord : onByte isNameChar (bytes code)[pos] = true ∧
          (pos = 0 ∨ onByte isNameChar (bytes code)[pos - 1] = false) then do
        let stop := skipWhile (onByte isNameChar) (bytes code) pos
        let word ← slice? code pos stop
        match Cut.ofWord? word with
        | none => cut? code start found none stop
        | some .before =>
          let found ← push? code found start pos
          cut? code pos found none stop
        | some .after =>
          let found ← push? code found start stop
          cut? code stop found none stop
        | some cut =>
          let found ← push? code found start pos
          match _skips : skipAttached? cut code stop with
          | none => none
          | some last =>
            let found ← push? code found pos last
            cut? code last found none last
      else cut? code start found none (pos + 1)
  else push? code found start (bytes code).length
termination_by (bytes code).length - pos
decreasing_by
  · have moves := quotedStep_pos close (bytes code)[pos]
    omega
  · omega
  · omega
  · omega
  · exact Nat.sub_lt_sub_left inside (lt_skipWhile inside isWord.1)
  · exact Nat.sub_lt_sub_left inside (lt_skipWhile inside isWord.1)
  · exact Nat.sub_lt_sub_left inside (lt_skipWhile inside isWord.1)
  · have moves := lt_skipWhile inside isWord.1
    exact Nat.sub_lt_sub_left inside (Nat.lt_of_lt_of_le moves (le_skipAttached? _skips))
  · omega

def fragments? (code : List Char) : Option (List Fragment) :=
  cut? code 0 [] none 0

section Scan

variable {code : List Char} (start : Nat) (found : List Fragment)

theorem readsQuotes_cut? (code : List Char) : ReadsQuotes code (cut? code start found) where
  quoted close pos inside := by
    conv_lhs => rw [cut?, dif_pos inside]
  wide pos inside isWide := by
    have differs {c : Char} (small : c.toNat < 128) : (bytes code)[pos] ≠ c.toUInt8 :=
      ne_of_wide isWide small
    have noWord := onByte_wide ascii_of_name isWide
    conv_lhs => rw [cut?, dif_pos inside]
    simp only [differs (c := '\x27') (by decide), differs (c := '\x22') (by decide),
      differs (c := '\x7b') (by decide), differs (c := ';') (by decide), noWord, or_self, if_false,
      Bool.false_eq_true, false_and, dite_false]
  ends quote other pos past outside also := by
    rw [cut?, dif_neg (Nat.not_lt.mpr outside), cut?, dif_neg (Nat.not_lt.mpr also)]

theorem push?_eq {front piece back : List Char} (whole : code = front ++ piece ++ back) :
    push? code found (width front) (width (front ++ piece)) =
      some (found ++ fragmentsFrom (width front) [piece]) := by
  by_cases empty : piece = []
  · have blank : trim ([] : List Char) = [] := rfl
    simp [push?, empty, fragmentsFrom, blank]
  · have nonempty := width_pos empty
    have notBehind : ¬width (front ++ piece) ≤ width front := by
      rw [width_append]
      omega
    have isRaw : slice? code (width front) (width (front ++ piece)) = some piece := by
      rw [whole, slice?_middle]
    have parts : piece.takeWhile isBlank ++ trimStart piece = piece :=
      List.takeWhile_append_dropWhile
    have isWidth : width piece = width (trimStart piece) + width (piece.takeWhile isBlank) := by
      rw [Nat.add_comm, ← width_append, parts]
    have leading : difference? (width piece) (width (trimStart piece)) =
        some (width (piece.takeWhile isBlank)) := by
      rw [isWidth, difference?_add]
    simp only [push?, if_neg notBehind, isRaw, Option.bind_eq_bind, Option.bind_some, fragmentsFrom,
      leading]
    split <;> simp

variable {front t : List Char} {c : Char} (whole : code = front ++ c :: t)

include whole

theorem cut?_quoted {close : Char} (opens : quoteClose? c = some close) :
    cut? code start found none (width front) =
      cut? code start found none (width (front ++ c :: (splitQuoted close t).1)) := by
  have small := ascii_of_quoteClose? opens
  have comesOut := (readsQuotes_cut? start found code).splitQuoted small
    (quoteClose?_ne_escape opens) (show code = (front ++ [c]) ++ t by simp [whole])
  rw [List.append_assoc] at comesOut
  have inside := inside_of_split whole
  conv_lhs => rw [cut?, dif_pos inside]
  rcases quoteClose?_cases opens with ⟨rfl | rfl, rfl⟩ | ⟨rfl, rfl⟩
  · have ascii : '\x27'.toNat < 128 := by decide
    simp only [getElem_ascii whole ascii, true_or, if_true, ← width_concat_ascii ascii]
    exact comesOut
  · have ascii : '\x22'.toNat < 128 := by decide
    simp only [getElem_ascii whole ascii, or_true, if_true, ← width_concat_ascii ascii]
    exact comesOut
  · have ascii : '\x7b'.toNat < 128 := by decide
    simp only [getElem_ascii whole ascii, if_true, ← width_concat_ascii ascii]
    rw [if_neg (by decide)]
    exact comesOut

theorem cut?_other (unquoted : quoteClose? c = none) (notSemicolon : c ≠ ';')
    (notName : isNameChar c = false) :
    cut? code start found none (width front) =
      cut? code start found none (width (front ++ [c])) := by
  have inside := inside_of_split whole
  by_cases ascii : c.toNat < 128
  · have differs {d : Char} (small : d.toNat < 128) (other : c ≠ d) : c.toUInt8 ≠ d.toUInt8 :=
      fun same => other ((toUInt8_eq_iff ascii small).mp same)
    have noQuote : c ≠ '\x7b' ∧ c ≠ '\x27' ∧ c ≠ '\x22' := by
      refine ⟨?_, ?_, ?_⟩ <;> rintro rfl <;> exact absurd unquoted (by decide)
    obtain ⟨noBrace, noApostrophe, noDouble⟩ := noQuote
    conv_lhs => rw [cut?, dif_pos inside]
    simp only [getElem_ascii whole ascii, onByte_ascii ascii, notName,
      differs (d := '\x27') (by decide) noApostrophe, differs (d := '\x22') (by decide) noDouble,
      differs (d := '\x7b') (by decide) noBrace, differs (d := ';') (by decide) notSemicolon,
      or_self, if_false, Bool.false_eq_true, false_and, dite_false, width_concat_ascii ascii]
  · exact (readsQuotes_cut? start found code).across none nofun whole ascii
      (Nat.le_refl _) (by simp)

omit whole in
theorem cut?_semicolon (whole : code = front ++ ';' :: t) :
    cut? code start found none (width front) =
      (push? code found start (width (front ++ [';']))).bind fun found =>
        cut? code (width (front ++ [';'])) found none (width (front ++ [';'])) := by
  have ascii : ';'.toNat < 128 := by decide
  conv_lhs => rw [cut?, dif_pos (inside_of_split whole)]
  simp only [getElem_ascii whole ascii, width_concat_ascii ascii]
  rfl

omit whole

theorem skipWhile_word {w back : List Char} (isWord : IsWordIn front w back)
    (whole : code = front ++ w ++ back) :
    skipWhile (onByte isNameChar) (bytes code) (width front) = width (front ++ w) := by
  obtain ⟨taken, -⟩ := span_append (s := w) isWord.ends
  rw [skipWhile_width ascii_of_name (whole.trans (List.append_assoc ..)), taken,
    List.takeWhile_eq_self_iff.mpr isWord.letters]

theorem cut?_word {w back : List Char} (isWord : IsWordIn front w back)
    (whole : code = front ++ w ++ back) :
    cut? code start found none (width front) =
      match Cut.ofWord? w with
      | none => cut? code start found none (width (front ++ w))
      | some .before =>
        (push? code found start (width front)).bind fun found =>
          cut? code (width front) found none (width (front ++ w))
      | some .after =>
        (push? code found start (width (front ++ w))).bind fun found =>
          cut? code (width (front ++ w)) found none (width (front ++ w))
      | some cut =>
        (push? code found start (width front)).bind fun found =>
          (skipAttached? cut code (width (front ++ w))).bind fun last =>
            (push? code found (width front) last).bind fun found =>
              cut? code last found none last := by
  obtain ⟨c, others, isText⟩ := List.exists_cons_of_ne_nil isWord.nonempty
  have split : code = front ++ c :: (others ++ back) := by simp [whole, isText]
  have isName : isNameChar c = true := isWord.letters c (by simp [isText])
  have inside := inside_of_split split
  have ascii := ascii_of_name c isName
  have byte := getElem_ascii split ascii inside
  have differs {d : Char} (small : d.toNat < 128) (noName : isNameChar d = false) :
      (bytes code)[width front] ≠ d.toUInt8 := by
    rw [byte]
    intro same
    rw [(toUInt8_eq_iff ascii small).mp same, noName] at isName
    cases isName
  have noQuote : ¬((bytes code)[width front] = '\x27'.toUInt8 ∨
      (bytes code)[width front] = '\x22'.toUInt8) :=
    not_or.mpr ⟨differs (by decide) (by decide), differs (by decide) (by decide)⟩
  have begins : onByte isNameChar (bytes code)[width front] = true ∧
      (width front = 0 ∨ onByte isNameChar (bytes code)[width front - 1] = false) := by
    refine ⟨by rw [byte, onByte_ascii ascii, isName], ?_⟩
    rcases List.eq_nil_or_concat' front with rfl | ⟨init, a, rfl⟩
    · exact .inl rfl
    · have behind := onByte_behind ascii_of_name split (isWord.begins a (by simp))
      exact .inr (behind _)
  have stop := skipWhile_word isWord whole
  have word : slice? code (width front) (width (front ++ w)) = some w := by
    rw [whole, slice?_middle]
  conv_lhs => rw [cut?, dif_pos inside]
  dsimp only
  rw [if_neg noQuote, if_neg (differs (by decide) (by decide)),
    if_neg (differs (by decide) (by decide)), dif_pos begins]
  simp only [stop, word, Option.bind_eq_bind, Option.bind_some]
  cases isCut : Cut.ofWord? w with
  | none => rfl
  | some cut =>
    cases cut with
    | before | after => rfl
    | aroundSection | aroundClosing | around =>
      dsimp only
      congr 1
      funext found
      split <;> rename_i skips <;> rw [stop] at skips <;> rw [skips] <;> rfl

theorem cut?_around {w back : List Char} (isWord : IsWordIn front w back)
    (whole : code = front ++ w ++ back) {cut : Cut} (isCut : Cut.ofWord? w = some cut)
    (notBefore : cut ≠ .before) (notAfter : cut ≠ .after) :
    cut? code start found none (width front) =
      (push? code found start (width front)).bind fun found =>
        (skipAttached? cut code (width (front ++ w))).bind fun last =>
          (push? code found (width front) last).bind fun found =>
            cut? code last found none last := by
  rw [cut?_word start found isWord whole]
  cases cut with
  | before => exact absurd rfl notBefore
  | after => exact absurd rfl notAfter
  | aroundSection | aroundClosing | around => simp only [isCut]

end Scan

section Attached

variable {code s : List Char} {spaces ls : List Lexeme}

theorem skipWhile_spaces (readTo : ReadTo code s (spaces ++ ls))
    (areSpaces : ∀ l ∈ spaces, l.isSpace = true) (ends : ∀ l ∈ ls.head?, l.isSpace = false) :
    skipWhile (onByte isSpacing) (bytes code) (width s) =
      width (s ++ spaces.flatMap Lexeme.text) := by
  have spacing : ∀ c ∈ spaces.flatMap Lexeme.text, isSpacing c = true := by
    intro c member
    obtain ⟨l, inside, isText⟩ := List.mem_flatMap.mp member
    exact spacing_of_mem_text (areSpaces l inside) isText
  have stops : ∀ d ∈ (ls.flatMap Lexeme.text).head?, isSpacing d = false := by
    cases ls with
    | nil => simp
    | cons l ls =>
      obtain ⟨c, t, isText, next⟩ := readTo.append.next
      rw [isText]
      rintro d ⟨⟩
      by_contra space
      rw [Bool.not_eq_false] at space
      rw [Lexeme.next_of_blank (isBlank_of_isSpacing space)] at next
      have isSpace := ends l rfl
      rw [← (Prod.mk.inj next).1, Lexeme.isSpace, space] at isSpace
      cases isSpace
  obtain ⟨taken, -⟩ := span_append (s := spaces.flatMap Lexeme.text) stops
  rw [skipWhile_width ascii_of_spacing readTo.whole, List.flatMap_append, taken,
    List.takeWhile_eq_self_iff.mpr spacing]

theorem skipWhile_noWord (readTo : ReadTo code s ls)
    (noWord : ∀ w, some (Lexeme.word w) ≠ ls.head?) :
    skipWhile (onByte isNameChar) (bytes code) (width s) = width s := by
  have stops : (ls.flatMap Lexeme.text).takeWhile isNameChar = [] := by
    cases ls with
    | nil => rfl
    | cons l ls =>
      obtain ⟨c, t, isText, next⟩ := readTo.next
      rw [isText, List.takeWhile_cons_of_neg]
      intro isName
      rw [Lexeme.next_of_name isName] at next
      exact noWord _ (congrArg some (Prod.mk.inj next).1)
  rw [skipWhile_width ascii_of_name readTo.whole, stops, List.append_nil]

theorem skipQualifiers?_noWord (readTo : ReadTo code s (spaces ++ ls))
    (areSpaces : ∀ l ∈ spaces, l.isSpace = true) (ends : ∀ l ∈ ls.head?, l.isSpace = false)
    (noWord : ∀ w, some (Lexeme.word w) ≠ ls.head?) :
    skipQualifiers? code (width s) = some (width s) := by
  have next := skipWhile_spaces readTo areSpaces ends
  have stop := skipWhile_noWord readTo.append noWord
  rw [skipQualifiers?, next, stop, dif_neg (Nat.lt_irrefl _)]

theorem skipQualifiers?_word {w : List Char} (readTo : ReadTo code s (spaces ++ .word w :: ls))
    (areSpaces : ∀ l ∈ spaces, l.isSpace = true) :
    skipQualifiers? code (width s) =
      if (Lexeme.word w).isQualifier then
        skipQualifiers? code (width (s ++ spaces.flatMap Lexeme.text ++ w))
      else some (width s) := by
  have isWord := readTo.append.word
  have whole := readTo.append.cons.whole
  have next := skipWhile_spaces readTo areSpaces (by simp [Lexeme.isSpace])
  have stop := skipWhile_word isWord whole
  have word : slice? code (width (s ++ spaces.flatMap Lexeme.text))
      (width (s ++ spaces.flatMap Lexeme.text ++ w)) = some w := by
    rw [whole]
    exact slice?_middle ..
  have among : (sectionQualifiers.any fun keyword => keyword.toList == w) =
      (Lexeme.word w).isQualifier := by
    rw [Bool.eq_iff_iff, List.any_eq_true, Lexeme.isQualifier_iff]
    refine exists_congr fun keyword => and_congr_right fun _ => ?_
    rw [beq_iff_eq, Lexeme.word.injEq, eq_comm]
  have longer : width (s ++ spaces.flatMap Lexeme.text) <
      width (s ++ spaces.flatMap Lexeme.text ++ w) := by
    rw [width_append _ w]
    exact Nat.lt_add_of_pos_right (width_pos isWord.nonempty)
  rw [skipQualifiers?]
  simp only [next, stop, dif_pos longer, word, among, Option.bind_eq_bind, Option.bind_some]

theorem skipQualifiers?_eq (readTo : ReadTo code s (spaces ++ ls))
    (areSpaces : ∀ l ∈ spaces, l.isSpace = true) :
    skipQualifiers? code (width s) =
      some (width (s ++ (takeQualifiers spaces ls).1.flatMap Lexeme.text)) := by
  fun_induction takeQualifiers spaces ls generalizing s with
  | case1 spaces =>
    rw [skipQualifiers?_noWord readTo areSpaces (by simp) (by simp), List.flatMap_nil,
      List.append_nil]
  | case2 spaces l ls isSpace ih =>
    refine ih (by simpa using readTo) ?_
    simpa [or_imp, forall_and, isSpace] using areSpaces
  | case3 spaces l ls notSpace isQualifier taken rest taking ih =>
    rw [taking] at ih
    have qualifier : l.isQualifier = true := isQualifier
    obtain ⟨keyword, -, rfl⟩ := Lexeme.isQualifier_iff.mp qualifier
    have later := ih readTo.append.cons (by simp)
    rw [skipQualifiers?_word readTo areSpaces, if_pos qualifier]
    simpa [Lexeme.text] using later
  | case4 spaces l ls notSpace notQualifier =>
    have other : ¬l.isQualifier = true := notQualifier
    rw [List.flatMap_nil, List.append_nil]
    cases l with
    | word w => rw [skipQualifiers?_word readTo areSpaces, if_neg other]
    | quoted | semicolon | other =>
      exact skipQualifiers?_noWord readTo areSpaces (by simpa using notSpace) (by simp)

theorem skipSemicolon_eq (readTo : ReadTo code s ls) :
    skipSemicolon (bytes code) (width s) =
      width (s ++ (takeSemicolon ls).1.flatMap Lexeme.text) := by
  have parts : ReadTo code s (ls.takeWhile Lexeme.isSpace ++ ls.dropWhile Lexeme.isSpace) := by
    rwa [List.takeWhile_append_dropWhile]
  have ends : ∀ l ∈ (ls.dropWhile Lexeme.isSpace).head?, l.isSpace = false := by
    intro l first
    have stops := List.head?_dropWhile_not Lexeme.isSpace ls
    rw [Option.mem_def.mp first] at stops
    simpa using stops
  have next := skipWhile_spaces parts (List.all_eq_true.mp List.all_takeWhile) ends
  have behind := parts.append
  have ahead :
      (bytes code)[width (s ++ (ls.takeWhile Lexeme.isSpace).flatMap Lexeme.text)]? =
          some ';'.toUInt8 ↔
        ((ls.dropWhile Lexeme.isSpace).flatMap Lexeme.text).head? = some ';' := by
    rw [← head_bytes (by decide), behind.whole, bytes_append, ← length_bytes,
      List.getElem?_append_right (Nat.le_refl _), Nat.sub_self, List.head?_eq_getElem?]
  rw [skipSemicolon, next, takeSemicolon]
  simp only [ahead]
  cases rest : ls.dropWhile Lexeme.isSpace with
  | nil => simp
  | cons l rest' =>
    rw [rest] at behind
    obtain ⟨c, t, isText, isNext⟩ := behind.next
    have isSemicolon := Lexeme.next_eq_semicolon_iff c t
    rw [isNext] at isSemicolon
    simp only [isText, List.head?_cons, Option.some.injEq, ← isSemicolon]
    cases l with
    | semicolon =>
      have ascii : ';'.toNat < 128 := by decide
      rw [if_pos rfl, ← width_concat_ascii ascii]
      simp [Lexeme.text]
    | quoted | word | other => simp

theorem skipAttached?_eq (cut : Cut) (readTo : ReadTo code s ls) :
    skipAttached? cut code (width s) =
      some (width (s ++ (takeAttached cut ls).1.flatMap Lexeme.text)) := by
  cases cut with
  | aroundSection =>
    have read : ReadTo code s ([] ++ ls) := readTo
    exact skipQualifiers?_eq read (by simp)
  | aroundClosing => exact congrArg some (skipSemicolon_eq readTo)
  | before | after | around => simp [skipAttached?, takeAttached]

end Attached

theorem fragmentsFrom_cons (offset : Nat) (piece : List Char) (rest : List (List Char)) :
    fragmentsFrom offset (piece :: rest) =
      fragmentsFrom offset [piece] ++ fragmentsFrom (offset + width piece) rest := by
  simp only [fragmentsFrom]
  split <;> rfl

def textsBehind (piece : List Char) (cuts : List Lexeme × List (List Lexeme)) : List (List Char) :=
  (piece ++ cuts.1.flatMap Lexeme.text) ::
    cuts.2.map fun other => other.flatMap Lexeme.text

section Pieces

variable {code s front piece : List Char} {ls : List Lexeme}

theorem push?_bind (readTo : ReadTo code s ls) (isRead : s = front ++ piece)
    {texts : List (List Char)} {rest : List Fragment → Option (List Fragment)}
    (later : ∀ found, rest found = some (found ++ fragmentsFrom (width s) texts))
    (found : List Fragment) :
    (push? code found (width front) (width s)).bind rest =
      some (found ++ fragmentsFrom (width front) (piece :: texts)) := by
  subst isRead
  rw [push?_eq found readTo.whole, Option.bind_some, later, fragmentsFrom_cons _ piece texts,
    width_append, List.append_assoc]

theorem cut?_pieces (readTo : ReadTo code s ls) (isRead : s = front ++ piece)
    (found : List Fragment) :
    cut? code (width front) found none (width s) =
      some (found ++ fragmentsFrom (width front) (textsBehind piece (pieces ls))) := by
  fun_induction pieces ls generalizing s front piece found with
  | case1 =>
    subst isRead
    have whole : code = front ++ piece ++ [] := readTo.whole
    have stop : (bytes code).length = width (front ++ piece) := by
      rw [whole, List.append_nil, length_bytes]
    have isEnd : ¬width (front ++ piece) < (bytes code).length := by
      rw [stop]
      exact Nat.lt_irrefl _
    rw [cut?, dif_neg isEnd, stop, push?_eq found whole]
    simp [textsBehind]
  -- A cut ends the open piece, and any other lexeme makes it longer.
  | case2 ls ih =>
    have whole : code = s ++ ';' :: ls.flatMap Lexeme.text := readTo.whole
    have ends : s ++ [';'] = front ++ (piece ++ [';']) := by rw [isRead, List.append_assoc]
    rw [cut?_semicolon (width front) found whole]
    exact push?_bind readTo.cons ends (ih readTo.cons (List.append_nil _).symm) found
  | case3 w ls uncut ih =>
    have ends : s ++ w = front ++ (piece ++ w) := by rw [isRead, List.append_assoc]
    rw [cut?_word (width front) found readTo.word readTo.cons.whole]
    simp only [uncut]
    rw [show width (s ++ w) = width (s ++ (Lexeme.word w).text) from rfl, ih readTo.cons ends found]
    simp [textsBehind, Lexeme.text]
  | case4 w ls cut ih =>
    rw [cut?_word (width front) found readTo.word readTo.cons.whole]
    simp only [cut]
    refine (push?_bind readTo isRead (ih readTo.cons rfl) found).trans ?_
    simp [textsBehind, Lexeme.text]
  | case5 w ls cut ih =>
    have ends : s ++ w = front ++ (piece ++ w) := by rw [isRead, List.append_assoc]
    rw [cut?_word (width front) found readTo.word readTo.cons.whole]
    simp only [cut]
    refine (push?_bind readTo.cons ends (ih readTo.cons (List.append_nil _).symm) found).trans ?_
    simp [textsBehind, Lexeme.text]
  | case6 w ls cut notBefore notAfter isCut attached =>
    rename_i ih
    have past : ReadTo code (s ++ w) ls := readTo.cons
    have taken : ReadTo code (s ++ w) (attached.1 ++ attached.2) := by
      rwa [takeAttached_append cut ls]
    have ends : s ++ w ++ attached.1.flatMap Lexeme.text =
        s ++ (w ++ attached.1.flatMap Lexeme.text) := List.append_assoc ..
    have behind : ∀ found, ((skipAttached? cut code (width (s ++ w))).bind fun last =>
        (push? code found (width s) last).bind fun found => cut? code last found none last) =
        some (found ++ fragmentsFrom (width s)
          ((w ++ attached.1.flatMap Lexeme.text) :: textsBehind [] (pieces attached.2))) := by
      intro found
      rw [skipAttached?_eq cut past, Option.bind_some]
      exact push?_bind taken.append ends (ih taken.append (List.append_nil _).symm) found
    rw [cut?_around (width front) found readTo.word readTo.cons.whole isCut notBefore notAfter]
    refine (push?_bind readTo isRead behind found).trans ?_
    simp [textsBehind, Lexeme.text]
  | case7 l ls notSemicolon notWord ih =>
    obtain ⟨c, t, isText, next⟩ := readTo.next
    have whole : code = s ++ c :: t := isText ▸ readTo.whole
    have ends : s ++ l.text = front ++ (piece ++ l.text) := by rw [isRead, List.append_assoc]
    have moves : cut? code (width front) found none (width s) =
        cut? code (width front) found none (width (s ++ l.text)) := by
      rcases Lexeme.next_cases c t with
        ⟨close, opens, reads⟩ | ⟨isName, reads⟩ | ⟨rfl, reads⟩ | ⟨opens, other, notName, reads⟩ <;>
        rw [reads] at next <;> obtain rfl := (Prod.mk.inj next).1
      · exact cut?_quoted (width front) found whole opens
      · exact absurd rfl (notWord _)
      · exact absurd rfl notSemicolon
      · exact cut?_other (width front) found whole opens other notName
    rw [moves, ih readTo.cons ends found]
    simp [textsBehind]

end Pieces

theorem fragments?_eq (code : List Char) : fragments? code = some (fragments code) := by
  have readTo : ReadTo code [] (lexemes code) := ⟨[], rfl, rfl⟩
  exact cut?_pieces readTo (List.append_nil []).symm []

end Bytewise

end StructuredText
