import StructuredText.Comment
import StructuredText.Grammar.Pragma
import StructuredText.Proofs.Concatenation
import StructuredText.Proofs.LetterCase
import StructuredText.Proofs.NoBoundary

set_option autoImplicit false

namespace StructuredText

section Option

variable {α β γ δ : Type} {R : α → β → Prop} {S : γ → δ → Prop}

theorem rel_bind {one : Option α} {other : Option β} (first : Option.Rel R one other)
    {next : α → Option γ} {otherNext : β → Option δ}
    (further : ∀ a b, R a b → Option.Rel S (next a) (otherNext b)) :
    Option.Rel S (one.bind next) (other.bind otherNext) := by
  cases first with
  | none => exact .none
  | some related => exact further _ _ related

theorem rel_map {one : Option α} {other : Option β} (first : Option.Rel R one other) {f : α → γ}
    {g : β → δ} (further : ∀ a b, R a b → S (f a) (g b)) :
    Option.Rel S (one.map f) (other.map g) := by
  cases first with
  | none => exact .none
  | some related => exact .some (further _ _ related)

theorem rel_or {one second : Option α} {other otherSecond : Option β}
    (first : Option.Rel R one other) (further : Option.Rel R second otherSecond) :
    Option.Rel R (one.or second) (other.or otherSecond) := by
  cases first with
  | none => exact further
  | some related => exact .some related

theorem exists_of_rel {a : α} {other : Option β} (related : Option.Rel R (some a) other) :
    ∃ b, other = some b ∧ R a b := by
  cases related with
  | some related => exact ⟨_, rfl, related⟩

theorem eq_none_of_rel {other : Option β} (related : Option.Rel R none other) : other = none := by
  cases related
  rfl

end Option

section Letters

theorem capitals_getLast?_iff {sign : Char} (noLetter : sign.isAlpha = false) (s : List Char) :
    (capitals s).getLast? = some sign ↔ s.getLast? = some sign := by
  rw [capitals, List.getLast?_map]
  cases s.getLast? with
  | none => simp
  | some c => simp [toUpper_eq_iff noLetter]

@[simp] theorem capitals_reverse (s : List Char) :
    (capitals s).reverse = capitals s.reverse := by
  simp [capitals, List.map_reverse]

@[simp] theorem capitals_dropLast (s : List Char) :
    (capitals s).dropLast = capitals s.dropLast := by
  simp [capitals, List.map_dropLast]

theorem trimStart_capitals (s : List Char) : trimStart (capitals s) = capitals (trimStart s) :=
  capitals_dropWhile isBlank_toUpper s

theorem trimEnd_capitals (s : List Char) : trimEnd (capitals s) = capitals (trimEnd s) := by
  rw [trimEnd, capitals_reverse, capitals_dropWhile isBlank_toUpper, capitals_reverse, trimEnd]

theorem trim_capitals (s : List Char) : trim (capitals s) = capitals (trim s) := by
  rw [trim, trimStart_capitals, trimEnd_capitals, trim]

theorem withoutTerminator_capitals (s : List Char) :
    withoutTerminator (capitals s) = capitals (withoutTerminator s) := by
  have last := capitals_getLast?_iff (by decide : ';'.isAlpha = false) s
  simp only [withoutTerminator, last, capitals_dropLast, trimEnd_capitals]
  split <;> rfl

theorem splitAtChar_capitals {close : Char} (noLetter : close.isAlpha = false) (s : List Char) :
    splitAtChar close (capitals s) = (splitAtChar close s).map (Prod.map capitals capitals) := by
  induction s with
  | nil => rfl
  | cons c s ih =>
    simp only [capitals_cons, splitAtChar, toUpper_eq_iff noLetter, ih]
    split
    · rfl
    · cases splitAtChar close s <;> rfl

theorem splitAtPair_capitals {a b : Char} (first : a.isAlpha = false) (second : b.isAlpha = false)
    (s : List Char) :
    splitAtPair a b (capitals s) = (splitAtPair a b s).map (Prod.map capitals capitals) := by
  fun_induction splitAtPair a b s with
  | case1 x y rest isPair =>
    simp [splitAtPair, toUpper_eq_iff first, toUpper_eq_iff second, isPair]
  | case2 x y rest other ih =>
    simp only [capitals_cons] at ih
    simp only [capitals_cons, splitAtPair, toUpper_eq_iff first, toUpper_eq_iff second,
      if_neg other, ih]
    cases splitAtPair a b (y :: rest) <;> rfl
  | case3 s short =>
    match s with
    | [] => rfl
    | [c] => rfl
    | c :: d :: rest => exact absurd rfl (short c d rest)

theorem unescaped_capitals {c : Char} {rest : List Char}
    (unescaped : ∀ d others, c = '$' → rest = d :: others → False) :
    ∀ d others, c.toUpper = '$' → capitals rest = d :: others → False := by
  intro d others isDollar shape
  obtain ⟨e, more, rfl, -, -⟩ := List.map_eq_cons_iff.mp shape
  exact unescaped e more ((toUpper_eq_iff (by decide)).mp isDollar) rfl

theorem splitQuoted_capitals {close : Char} (noLetter : close.isAlpha = false) (s : List Char) :
    splitQuoted close (capitals s) =
      (capitals (splitQuoted close s).1, capitals (splitQuoted close s).2) := by
  have isDollar : '$'.toUpper = '$' := by decide
  fun_induction splitQuoted close s with
  | case1 => rfl
  | case2 c rest quoted after split ih =>
    rw [split] at ih
    simp [splitQuoted, isDollar, ih]
  | case3 rest unescaped =>
    have isClose : close.toUpper = close := (toUpper_eq_iff noLetter).mpr rfl
    rw [capitals_cons, splitQuoted]
    · simp [isClose]
    · exact unescaped_capitals unescaped
  | case4 c rest unescaped other quoted after split ih =>
    rw [split] at ih
    rw [capitals_cons, splitQuoted]
    · simp [toUpper_eq_iff noLetter, other, ih]
    · exact unescaped_capitals unescaped

@[simp] theorem stringClose?_toUpper (c : Char) : stringClose? c.toUpper = stringClose? c := by
  have single : c.toUpper = '\x27' ↔ c = '\x27' := toUpper_eq_iff (by decide)
  have double : c.toUpper = '\x22' ↔ c = '\x22' := toUpper_eq_iff (by decide)
  simp only [stringClose?, single, double]
  split
  · rename_i quote
    rcases quote with rfl | rfl <;> decide
  · rfl

@[simp] theorem quoteClose?_toUpper (c : Char) : quoteClose? c.toUpper = quoteClose? c := by
  have brace : c.toUpper = '\x7b' ↔ c = '\x7b' := toUpper_eq_iff (by decide)
  simp only [quoteClose?, brace, stringClose?_toUpper]

theorem isAlpha_of_quoteClose? {c close : Char} (opens : quoteClose? c = some close) :
    close.isAlpha = false := by
  have signs : ∀ sign ∈ ['\x7d', '\x27', '\x22'], sign.isAlpha = false := by simp
  exact signs close (quoteClose?_mem opens)

theorem charsBefore?_capitals (s : List Char) (offset : Nat) :
    charsBefore? (capitals s) offset = charsBefore? s offset := by
  induction s generalizing offset with
  | nil => rfl
  | cons c s ih =>
    cases offset with
    | zero => rfl
    | succ offset => simp only [capitals_cons, charsBefore?, utf8Size_toUpper, ih]

end Letters

namespace Recased

variable {s t : List Char}

theorem trimStart (alike : Recased s t) :
    Recased (StructuredText.trimStart s) (StructuredText.trimStart t) :=
  alike.of_suffix trimStart_suffix trimStart_capitals

theorem trimEnd (alike : Recased s t) :
    Recased (StructuredText.trimEnd s) (StructuredText.trimEnd t) := by
  refine alike.of_prefix (fun s => ?_) trimEnd_capitals
  obtain ⟨blank, whole, -⟩ := trimEnd_append s
  exact ⟨blank, whole.symm⟩

theorem trim (alike : Recased s t) : Recased (StructuredText.trim s) (StructuredText.trim t) :=
  alike.trimStart.trimEnd

theorem withoutTerminator (alike : Recased s t) :
    Recased (StructuredText.withoutTerminator s) (StructuredText.withoutTerminator t) := by
  refine alike.of_prefix (fun s => ?_) withoutTerminator_capitals
  obtain ⟨rest, whole, -⟩ := withoutTerminator_append s
  exact ⟨rest, whole.symm⟩

theorem dropLast (alike : Recased s t) : Recased s.dropLast t.dropLast :=
  alike.of_prefix List.dropLast_prefix capitals_dropLast

theorem getLast?_iff {sign : Char} (alike : Recased s t) (noLetter : sign.isAlpha = false) :
    s.getLast? = some sign ↔ t.getLast? = some sign := by
  rw [← capitals_getLast?_iff noLetter, alike.letters, capitals_getLast?_iff noLetter]

theorem eq_sign_iff {sign : Char} (alike : Recased s t) (noLetter : sign.isAlpha = false) :
    s = [sign] ↔ t = [sign] := by
  have alone (s : List Char) : s = [sign] ↔ capitals s = [sign] := by
    constructor
    · rintro rfl
      simpa using (toUpper_eq_iff noLetter).mpr rfl
    · intro shape
      obtain ⟨c, rfl, isSign⟩ := List.map_eq_singleton_iff.mp shape
      rw [(toUpper_eq_iff noLetter).mp isSign]
  rw [alone, alike.letters, ← alone]

theorem starts {sign : Char} (alike : Recased s t) (noLetter : sign.isAlpha = false) :
    (∃ rest other, s = sign :: rest ∧ t = sign :: other ∧ Recased rest other) ∨
      (∀ rest, s ≠ sign :: rest) ∧ ∀ other, t ≠ sign :: other := by
  have begins {s t : List Char} (alike : Recased s t) {rest : List Char}
      (shape : s = sign :: rest) :
      ∃ other, t = sign :: other ∧ Recased rest other := by
    subst shape
    obtain ⟨d, other, rfl, letters, behind⟩ := alike.cons_elim
    obtain rfl : d = sign := (StructuredText.eq_sign_iff noLetter letters).mp rfl
    exact ⟨other, rfl, behind⟩
  by_cases first : ∃ rest, s = sign :: rest
  · obtain ⟨rest, shape⟩ := first
    obtain ⟨other, otherShape, behind⟩ := begins alike shape
    exact .inl ⟨rest, other, shape, otherShape, behind⟩
  · refine .inr ⟨fun rest shape => first ⟨rest, shape⟩, fun other shape => first ?_⟩
    obtain ⟨rest, otherShape, -⟩ := begins alike.symm shape
    exact ⟨rest, otherShape⟩

theorem of_split {split : List Char → Option (List Char × List Char)} {sign : Char}
    (whole : ∀ {s before after : List Char},
      split s = some (before, after) → s = before ++ sign :: after)
    (commutes : ∀ s, split (capitals s) = (split s).map (Prod.map capitals capitals))
    (alike : Recased s t) :
    Option.Rel (fun parts others => Recased parts.1 others.1 ∧ Recased parts.2 others.2)
      (split s) (split t) := by
  have same : (split s).map (Prod.map capitals capitals) =
      (split t).map (Prod.map capitals capitals) := by
    rw [← commutes, alike.letters, commutes]
  cases first : split s with
  | none =>
    rw [first, Option.map_none, eq_comm, Option.map_eq_none_iff] at same
    rw [same]
    exact .none
  | some parts =>
    cases second : split t with
    | none => simp [first, second] at same
    | some others =>
      simp only [first, second, Option.map_some, Option.some.injEq, Prod.map, Prod.mk.injEq] at same
      rw [whole first, whole second] at alike
      obtain ⟨before, rest⟩ := alike.parts (by simpa using congrArg List.length same.1)
      exact .some ⟨before, by simpa using rest.drop 1⟩

theorem splitAtChar {close : Char} (alike : Recased s t) (noLetter : close.isAlpha = false) :
    Option.Rel (fun parts others => Recased parts.1 others.1 ∧ Recased parts.2 others.2)
      (StructuredText.splitAtChar close s) (StructuredText.splitAtChar close t) :=
  alike.of_split splitAtChar_eq (splitAtChar_capitals noLetter)

end Recased

section Pieces

inductive CutAlike :
    List Char → List Char → List (List Char) → List (List Char) → Prop where
  | nil : CutAlike [] [] [] []
  | last : CutAlike [] [] [[]] [[]]
  | keep {c d : Char} {s t : List Char} {pieces others : List (List Char)}
    (rest : CutAlike s t pieces others) :
    CutAlike (c :: s) (d :: t) (consFirst c pieces) (consFirst d others)
  | cut (gap other : List Char) {s t : List Char} {pieces others : List (List Char)}
    (lengths : gap.length = other.length) (rest : CutAlike s t pieces others) :
    CutAlike (gap ++ s) (other ++ t) ([] :: pieces) ([] :: others)

theorem CutAlike.recased {s t : List Char} {pieces others : List (List Char)}
    (cuts : CutAlike s t pieces others) {begun other : List Char}
    (alike : Recased (begun ++ s) (other ++ t)) (lengths : begun.length = other.length) :
    List.Forall₂ Recased (begun.foldr consFirst pieces) (other.foldr consFirst others) := by
  induction cuts generalizing begun other with
  | nil =>
    simp only [List.append_nil] at alike
    simp only [foldr_consFirst_nil, alike.nil_iff]
    split
    · exact .nil
    · exact .cons alike .nil
  | last =>
    simp only [foldr_consFirst_cons]
    exact .cons alike .nil
  | @keep c d s t pieces others _ ih =>
    have further : List.Forall₂ Recased ((begun ++ [c]).foldr consFirst pieces)
        ((other ++ [d]).foldr consFirst others) :=
      ih (by simpa using alike) (by simp [lengths])
    simpa only [List.foldr_append, List.foldr_cons, List.foldr_nil] using further
  | @cut gap otherGap s t pieces others gaps _ ih =>
    obtain ⟨piece, rest⟩ := alike.parts lengths
    have further : List.Forall₂ Recased ([].foldr consFirst pieces) ([].foldr consFirst others) :=
      ih (rest.parts gaps).2 rfl
    simp only [foldr_consFirst_cons, List.append_nil]
    exact .cons piece further

theorem CutAlike.splitWhere {cut : Char → Bool} (fixed : ∀ c, cut c.toUpper = cut c)
    {s t : List Char} (same : capitals s = capitals t) :
    CutAlike s t (splitWhere cut s) (splitWhere cut t) := by
  induction s generalizing t with
  | nil =>
    obtain rfl : t = [] := List.map_eq_nil_iff.mp same.symm
    exact .last
  | cons c s ih =>
    obtain ⟨d, t, rfl, isLetter, rest⟩ := List.map_eq_cons_iff.mp same.symm
    simp only [StructuredText.splitWhere, class_eq fixed isLetter.symm]
    split
    · exact .cut [c] [d] rfl (ih rest.symm)
    · exact .keep (ih rest.symm)

theorem CutAlike.lines {s t : List Char} (same : capitals s = capitals t) :
    CutAlike s t (lines s) (lines t) := by
  have newline (c : Char) : c.toUpper = '\n' ↔ c = '\n' := toUpper_eq_iff (by decide)
  have carriage (c : Char) : c.toUpper = '\r' ↔ c = '\r' := toUpper_eq_iff (by decide)
  fun_induction StructuredText.lines s generalizing t with
  | case1 =>
    obtain rfl : t = [] := List.map_eq_nil_iff.mp same.symm
    exact .nil
  | case2 s ih =>
    obtain ⟨d, t, rfl, isLetter, rest⟩ := List.map_eq_cons_iff.mp same.symm
    obtain rfl : d = '\n' := (newline d).mp isLetter
    exact .cut ['\n'] ['\n'] rfl (ih rest.symm)
  | case3 s ih =>
    obtain ⟨d, rest, rfl, isLetter, behind⟩ := List.map_eq_cons_iff.mp same.symm
    obtain ⟨e, t, rfl, isNext, rest⟩ := List.map_eq_cons_iff.mp behind
    obtain rfl : d = '\r' := (carriage d).mp isLetter
    obtain rfl : e = '\n' := (newline e).mp isNext
    exact .cut ['\r', '\n'] ['\r', '\n'] rfl (ih rest.symm)
  | case4 c s notNewline notBoth ih =>
    obtain ⟨d, t, rfl, isLetter, rest⟩ := List.map_eq_cons_iff.mp same.symm
    rw [StructuredText.lines]
    · exact .keep (ih rest.symm)
    · rintro rfl
      exact notNewline ((newline c).mp isLetter.symm)
    · rintro others rfl rfl
      obtain ⟨e, others, rfl, isNext, -⟩ := List.map_eq_cons_iff.mp rest.symm
      exact notBoth others ((carriage c).mp isLetter.symm) (by rw [(newline e).mp isNext])

namespace Recased

variable {s t : List Char}

theorem pieces {pieces others : List (List Char)} (alike : Recased s t)
    (cuts : CutAlike s t pieces others) : List.Forall₂ Recased pieces others :=
  have whole : List.Forall₂ Recased ([].foldr consFirst pieces) ([].foldr consFirst others) :=
    cuts.recased alike rfl
  whole

theorem splitWhere {cut : Char → Bool} (alike : Recased s t)
    (fixed : ∀ c, cut c.toUpper = cut c) :
    List.Forall₂ Recased (StructuredText.splitWhere cut s) (StructuredText.splitWhere cut t) :=
  alike.pieces (.splitWhere fixed alike.letters)

theorem lines (alike : Recased s t) :
    List.Forall₂ Recased (StructuredText.lines s) (StructuredText.lines t) :=
  alike.pieces (.lines alike.letters)

end Recased

end Pieces

section Words

variable {w v : List Char}

theorem Recased.any_eq (alike : Recased w v) {keywords : List String}
    (foreign : ∀ keyword ∈ keywords, Foreign keyword.toList) :
    (keywords.any fun keyword => keyword.toList == w) =
      keywords.any fun keyword => keyword.toList == v := by
  rw [Bool.eq_iff_iff, List.any_eq_true, List.any_eq_true]
  refine exists_congr fun keyword => and_congr_right fun member => ?_
  simpa only [beq_iff_eq] using alike.eq_iff (foreign keyword member)

theorem sameLetters_eq (same : capitals w = capitals v) (keyword : List Char) :
    sameLetters w keyword = sameLetters v keyword :=
  congrArg (· == capitals keyword) same

theorem foreign_header : ∀ keyword ∈ headerKeywords, Foreign keyword.toList := by
  decide +kernel

theorem foreign_closing : ∀ keyword ∈ closingKeywords, Foreign keyword.toList := by
  decide +kernel

theorem foreign_section : ∀ keyword ∈ sectionKeywords, Foreign keyword.toList := by
  decide +kernel

theorem foreign_qualifier : ∀ keyword ∈ sectionQualifiers, Foreign keyword.toList := by
  decide +kernel

theorem Recased.ofWord? (alike : Recased w v) : Cut.ofWord? w = Cut.ofWord? v := by
  simp only [Cut.ofWord?, alike.any_eq foreign_header, alike.any_eq foreign_closing,
    alike.any_eq foreign_section, sameLetters_eq alike.letters]

end Words

end StructuredText
