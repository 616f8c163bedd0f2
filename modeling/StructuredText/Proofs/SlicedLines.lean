import StructuredText.Proofs.SingleParameters
import StructuredText.Proofs.SlicedComments
import StructuredText.Proofs.SlicedFragments

set_option autoImplicit false

namespace StructuredText

theorem length_lt_of_slice? {s t : List Char} {start stop : Nat}
    (sliced : slice? s (start + 1) stop = some t) : t.length < s.length := by
  obtain ⟨front, back, rfl, isStart, -⟩ := slice?_eq_some_iff.mp sliced
  have nonempty : front ≠ [] := by
    rintro rfl
    cases isStart
  have positive := List.length_pos_iff.mpr nonempty
  simp only [List.length_append]
  omega

namespace Bytewise

def withoutPragmas? (text : List Char) : Option (List Char) :=
  if text.head? = some '\x7b' then
    match offsetOf? ['\x7d'] text with
    | none => some []
    | some found =>
      match _behind : slice? text (found + 1) (width text) with
      | none => none
      | some rest => withoutPragmas? (trimStart rest)
  else some text
termination_by text.length
decreasing_by
  exact Nat.lt_of_le_of_lt (trimStart_length_le rest) (length_lt_of_slice? _behind)

theorem withoutPragmas?_eq (text : List Char) :
    withoutPragmas? text = some (withoutPragmas text) := by
  fun_induction withoutPragmas text with
  | case1 rest before after split ih =>
    have found : offsetOf? ['\x7d'] ('\x7b' :: rest) = some (width ('\x7b' :: before)) := by
      simp [offsetOf?_char, splitAtChar, split]
    have behind : slice? ('\x7b' :: rest) (width ('\x7b' :: before) + 1)
        (width ('\x7b' :: rest)) = some after := by
      have ascii : '\x7d'.toNat < 128 := by decide
      have parts : '\x7b' :: rest = ('\x7b' :: before) ++ ['\x7d'] ++ after := by
        simp [splitAtChar_eq split]
      rw [parts, ← width_concat_ascii ascii, slice?_right]
    rw [withoutPragmas?, if_pos List.head?_cons, found]
    dsimp only
    split <;> rename_i sliced <;> rw [behind] at sliced <;> cases sliced
    exact ih
  | case2 rest unclosed =>
    have absent : offsetOf? ['\x7d'] ('\x7b' :: rest) = none := by
      simp [offsetOf?_char, splitAtChar, unclosed]
    rw [withoutPragmas?, if_pos List.head?_cons, absent]
  | case3 s noPragma =>
    have other : s.head? ≠ some '\x7b' := by
      intro opens
      obtain ⟨rest, rfl⟩ := List.head?_eq_some_iff.mp opens
      exact noPragma rest rfl
    rw [withoutPragmas?, if_neg other]

-- Goes over the bytes of a list of parameters. The entry from `start` on is not cut off yet.
def splitTopLevel? (text : List Char) (depth : Int) (start pos : Nat) :
    List UInt8 → Option (List (List Char))
  | [] => do
    let last ← slice? text start (width text)
    some [last]
  | byte :: rest =>
    if byte = '('.toUInt8 ∨ byte = '['.toUInt8 then
      splitTopLevel? text (depth + 1) start (pos + 1) rest
    else if byte = ')'.toUInt8 ∨ byte = ']'.toUInt8 then
      splitTopLevel? text (depth - 1) start (pos + 1) rest
    else if byte = ','.toUInt8 ∧ depth = 0 then do
      let entry ← slice? text start pos
      let others ← splitTopLevel? text depth (pos + 1) (pos + 1) rest
      some (entry :: others)
    else splitTopLevel? text depth start (pos + 1) rest

section Parameters

open Parameter

variable {text : List Char}

theorem splitTopLevel?_wide {wide : List UInt8} (areWide : ∀ byte ∈ wide, 128 ≤ byte.toNat)
    (depth : Int) (start pos : Nat) (rest : List UInt8) :
    splitTopLevel? text depth start pos (wide ++ rest) =
      splitTopLevel? text depth start (pos + wide.length) rest := by
  induction wide generalizing pos with
  | nil => rfl
  | cons byte wide ih =>
    have differs {c : Char} (small : c.toNat < 128) : byte ≠ c.toUInt8 :=
      ne_of_wide (areWide byte List.mem_cons_self) small
    have noOpener : ¬(byte = '('.toUInt8 ∨ byte = '['.toUInt8) :=
      not_or.mpr ⟨differs (by decide), differs (by decide)⟩
    have noCloser : ¬(byte = ')'.toUInt8 ∨ byte = ']'.toUInt8) :=
      not_or.mpr ⟨differs (by decide), differs (by decide)⟩
    have noComma : ¬(byte = ','.toUInt8 ∧ depth = 0) := fun both => differs (by decide) both.1
    rw [List.cons_append, splitTopLevel?, if_neg noOpener, if_neg noCloser, if_neg noComma,
      ih fun other member => areWide other (List.mem_cons_of_mem byte member), List.length_cons,
      Nat.add_right_comm, Nat.add_assoc]

theorem splitTopLevel?_char (depth : Int) (start pos : Nat) (c : Char) (rest : List UInt8) :
    splitTopLevel? text depth start pos (String.utf8EncodeChar c ++ rest) =
      if c = ',' ∧ depth = 0 then
        (slice? text start pos).bind fun entry =>
          (splitTopLevel? text depth (pos + 1) (pos + 1) rest).bind fun others =>
            some (entry :: others)
      else splitTopLevel? text (depth + nesting c) start (pos + c.utf8Size) rest := by
  have size := String.length_utf8EncodeChar c
  by_cases ascii : c.toNat < 128
  · have isByte {d : Char} (small : d.toNat < 128) : c.toUInt8 = d.toUInt8 ↔ c = d :=
      toUInt8_eq_iff ascii small
    rw [encode_of_ascii ascii, List.length_singleton] at size
    rw [encode_of_ascii ascii, List.singleton_append, splitTopLevel?, ← size]
    simp only [isByte (d := '(') (by decide), isByte (d := '[') (by decide),
      isByte (d := ')') (by decide), isByte (d := ']') (by decide), isByte (d := ',') (by decide)]
    by_cases separates : c = ',' ∧ depth = 0
    · obtain ⟨rfl, rfl⟩ := separates
      rfl
    · rw [if_neg separates, if_neg separates, nesting]
      split
      · rfl
      · split
        · rfl
        · rw [Int.add_zero]
  · have other {d : Char} (small : d.toNat < 128) : c ≠ d := by
      rintro rfl
      exact ascii small
    have level : nesting c = 0 := by
      simp [nesting, other (d := '(') (by decide), other (d := '[') (by decide),
        other (d := ')') (by decide), other (d := ']') (by decide)]
    rw [splitTopLevel?_wide (wide_of_mem_encode ascii), size, level, Int.add_zero,
      if_neg fun separates => other (by decide) separates.1]

theorem splitTopLevel?_eq {front piece s : List Char} (whole : text = front ++ piece ++ s)
    (depth : Int) :
    splitTopLevel? text depth (width front) (width (front ++ piece)) (bytes s) =
      some (piece.foldr consFirst (splitTopLevel depth s)) := by
  induction s generalizing front piece depth with
  | nil =>
    rw [List.append_nil] at whole
    rw [bytes_nil, splitTopLevel?, splitTopLevel, foldr_consFirst_cons, List.append_nil, whole,
      slice?_right]
    rfl
  | cons c s ih =>
    have stop : width (front ++ piece) + c.utf8Size = width (front ++ piece ++ [c]) := by
      rw [width_append _ [c]]
      rfl
    rw [bytes_cons, splitTopLevel?_char, splitTopLevel]
    by_cases separates : c = ',' ∧ depth = 0
    · have entry : slice? text (width front) (width (front ++ piece)) = some piece := by
        rw [whole, slice?_middle]
      have behind : width (front ++ piece) + 1 = width (front ++ piece ++ [c]) := by
        rw [← stop, separates.1]
        rfl
      have others := ih (show text = front ++ piece ++ [c] ++ [] ++ s by simp [whole]) depth
      rw [List.append_nil] at others
      rw [if_pos separates, if_pos separates, entry, behind, Option.bind_some, others,
        foldr_consFirst_cons, List.append_nil]
      rfl
    · have joined := ih (show text = front ++ (piece ++ [c]) ++ s by simp [whole])
        (depth + nesting c)
      rw [if_neg separates, if_neg separates, stop, List.append_assoc, joined, List.foldr_append]
      rfl

end Parameters

def textStart? (fragment : Fragment) : Option Nat := do
  let text ← withoutPragmas? fragment.text
  difference? fragment.stop (width text)

theorem slice?_textStart {code : List Char} {fragment : Fragment}
    (member : fragment ∈ fragments code) :
    textStart? fragment = some (fragment.stop - width (withoutPragmas fragment.text)) ∧
      slice? code (fragment.stop - width (withoutPragmas fragment.text)) fragment.stop =
        some (withoutPragmas fragment.text) := by
  obtain ⟨⟨before, after, whole, start⟩, stop, -, -⟩ := standsIn_fragments member
  obtain ⟨skipped, split⟩ := (withoutPragmas_suffix fragment.text).1
  have widths := congrArg width split
  rw [width_append] at widths
  have isStop : fragment.stop =
      width (withoutPragmas fragment.text) + width (before ++ skipped) := by
    rw [stop, start, width_append]
    omega
  have parts : code = before ++ skipped ++ withoutPragmas fragment.text ++ after := by
    rw [whole, List.append_assoc before skipped, split]
  rw [textStart?, withoutPragmas?_eq, Option.bind_eq_bind, Option.bind_some, isStop,
    difference?_add, Nat.add_sub_cancel_left]
  refine ⟨rfl, slice?_eq_some_iff.mpr ⟨before ++ skipped, after, parts, rfl, ?_⟩⟩
  exact Nat.add_comm ..

theorem charsBefore?_textStart {carried : Option OpenComment} {raw : List Char} {number : Nat}
    {fragment : Fragment} (member : fragment ∈ fragments (strip carried raw number).1.code)
    (nonempty : withoutPragmas fragment.text ≠ []) :
    (charsBefore? raw (fragment.stop - width (withoutPragmas fragment.text))).isSome := by
  let step : Step := ⟨⟨raw, (strip carried raw number).1, number⟩, fragment, none⟩
  have isPart : step.IsPart := ⟨Overlays.strip carried raw number, member⟩
  obtain ⟨c, -, stands⟩ := isPart.hasAt_text nonempty
  obtain ⟨before, -, -, isBoundary⟩ := stands.charsBefore?
  rw [Option.isSome_iff_exists]
  exact ⟨before.length, isBoundary⟩

theorem bytewise_eq (carried : Option OpenComment) (numbered : List (List Char × Nat))
    (code text : List Char) :
    stripEach? carried numbered = some (stripEach carried numbered) ∧
      fragments? code = some (fragments code) ∧
      withoutPragmas? text = some (withoutPragmas text) ∧
      splitTopLevel? text 0 0 0 (bytes text) = some (Parameter.splitTopLevel 0 text) ∧
      (∀ fragment ∈ fragments code, ∃ offset, textStart? fragment = some offset ∧
        slice? code offset fragment.stop = some (withoutPragmas fragment.text)) ∧
      ∀ raw number, ∀ fragment ∈ fragments (strip carried raw number).1.code,
        withoutPragmas fragment.text ≠ [] → ∃ offset, textStart? fragment = some offset ∧
          (charsBefore? raw offset).isSome := by
  have parameters := splitTopLevel?_eq (show text = [] ++ [] ++ text from rfl) 0
  refine ⟨stripEach?_eq carried numbered, fragments?_eq code, withoutPragmas?_eq text, parameters,
    fun fragment member => ⟨_, slice?_textStart member⟩, ?_⟩
  intro raw number fragment member nonempty
  exact ⟨_, (slice?_textStart member).1, charsBefore?_textStart member nonempty⟩

theorem bytewise_eq_accented :
    let raw := "\x7bp\x7d x := \x22$é\x22; // é".toList
    let code := (strip none raw 1).1.code
    let text := "\x7bp\x7d x := \x22$é\x22;".toList
    ⟨text, 0, 15⟩ ∈ fragments code ∧ withoutPragmas text ≠ [] ∧
      stripEach? none [(raw, 1)] = some (stripEach none [(raw, 1)]) ∧
      fragments? code = some (fragments code) ∧
      (∃ offset, textStart? ⟨text, 0, 15⟩ = some offset ∧
        slice? code offset 15 = some (withoutPragmas text)) ∧
      ∃ offset, textStart? ⟨text, 0, 15⟩ = some offset ∧ (charsBefore? raw offset).isSome := by
  intro raw code text
  have member : ⟨text, 0, 15⟩ ∈ fragments code := by decide +kernel
  have nonempty : withoutPragmas text ≠ [] := by decide +kernel
  obtain ⟨stripped, cuts, -, -, texts, starts⟩ := bytewise_eq none [(raw, 1)] code text
  exact ⟨member, nonempty, stripped, cuts, texts _ member, starts raw 1 _ member nonempty⟩

end Bytewise

end StructuredText
