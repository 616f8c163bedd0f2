import Mathlib.Data.List.Forall2
import Mathlib.Data.List.Infix
import Mathlib.Data.List.SplitBy
import StructuredText.Grammar.Conditional
import StructuredText.Proofs.PlainText

set_option autoImplicit false

namespace StructuredText

def capitals (s : List Char) : List Char :=
  s.map Char.toUpper

def conditionalKeywords : List String :=
  ["IF", "THEN", "ELSIF", "ELSE", "END_IF"]

structure Foreign (keyword : List Char) : Prop where
  characters : ∀ c ∈ keyword, isNameChar c = true
  noPart : ∀ other ∈ conditionalKeywords, ¬ capitals keyword <:+: other.toList

instance (keyword : List Char) : Decidable (Foreign keyword) :=
  decidable_of_iff
    (keyword.all isNameChar = true ∧
      ∀ other ∈ conditionalKeywords, ¬ capitals keyword <:+: other.toList)
    ⟨fun ⟨characters, noPart⟩ => ⟨List.all_eq_true.mp characters, noPart⟩,
      fun foreign => ⟨List.all_eq_true.mpr foreign.characters, foreign.noPart⟩⟩

structure Recased (s t : List Char) : Prop where
  letters : capitals s = capitals t
  keywords : ∀ keyword, Foreign keyword → ∀ n, keyword <+: s.drop n ↔ keyword <+: t.drop n

section Letters

theorem toNat_of_alpha {c : Char} (letter : c.isAlpha = true) :
    65 ≤ c.toNat ∧ c.toNat ≤ 90 ∨ 97 ≤ c.toNat ∧ c.toNat ≤ 122 := by
  rcases (Bool.or_eq_true _ _).mp letter with upper | lower
  · obtain ⟨above, below⟩ := of_decide_eq_true upper
    exact .inl ⟨UInt32.le_iff_toNat_le.mp above, UInt32.le_iff_toNat_le.mp below⟩
  · obtain ⟨above, below⟩ := (Bool.and_eq_true _ _).mp lower
    exact .inr ⟨UInt32.le_iff_toNat_le.mp (of_decide_eq_true above),
      UInt32.le_iff_toNat_le.mp (of_decide_eq_true below)⟩

theorem toUpper_of_not_lower {c : Char} (notLower : c.isLower = false) : c.toUpper = c := by
  refine dif_neg ?_
  rintro ⟨above, below⟩
  have isLower : c.isLower = true :=
    (Bool.and_eq_true _ _).mpr ⟨decide_eq_true above, decide_eq_true below⟩
  rw [notLower] at isLower
  cases isLower

theorem toNat_toUpper_of_lower {c : Char} (lower : c.isLower = true) :
    c.toUpper.toNat + 32 = c.toNat := by
  obtain ⟨above, below⟩ := (Bool.and_eq_true _ _).mp lower
  have range : 'a'.val ≤ c.val ∧ c.val ≤ 'z'.val :=
    ⟨of_decide_eq_true above, of_decide_eq_true below⟩
  have shift : ('A'.val - 'a'.val).toNat = 4294967264 := by decide
  change (dite _ (fun _ => (⟨c.val + ('A'.val - 'a'.val), _⟩ : Char)) fun _ => c).val.toNat + 32 =
    c.val.toNat
  rw [dif_pos range]
  change (c.val + ('A'.val - 'a'.val)).toNat + 32 = c.val.toNat
  rw [UInt32.toNat_add, shift]
  have least : 97 ≤ c.val.toNat := UInt32.le_iff_toNat_le.mp range.1
  have most : c.val.toNat ≤ 122 := UInt32.le_iff_toNat_le.mp range.2
  omega

theorem isAlpha_toUpper {c : Char} (letter : c.isAlpha = true) : c.toUpper.isAlpha = true := by
  cases lower : c.isLower with
  | false => rwa [toUpper_of_not_lower lower]
  | true =>
    obtain ⟨above, below⟩ := (Bool.and_eq_true _ _).mp lower
    have least : 97 ≤ c.toNat := UInt32.le_iff_toNat_le.mp (of_decide_eq_true above)
    have most : c.toNat ≤ 122 := UInt32.le_iff_toNat_le.mp (of_decide_eq_true below)
    have moved := toNat_toUpper_of_lower lower
    have isUpper : c.toUpper.isUpper = true := by
      refine decide_eq_true ⟨UInt32.le_iff_toNat_le.mpr ?_, UInt32.le_iff_toNat_le.mpr ?_⟩
      · change 65 ≤ c.toUpper.toNat
        omega
      · change c.toUpper.toNat ≤ 90
        omega
    exact (Bool.or_eq_true _ _).mpr (.inl isUpper)

theorem class_toUpper {isClass : Char → Bool} (value : Bool)
    (letters : ∀ c, c.isAlpha = true → isClass c = value) (c : Char) :
    isClass c.toUpper = isClass c := by
  cases letter : c.isAlpha with
  | true => rw [letters c letter, letters _ (isAlpha_toUpper letter)]
  | false =>
    obtain ⟨-, notLower⟩ := Bool.or_eq_false_iff.mp letter
    rw [toUpper_of_not_lower notLower]

theorem isNameChar_of_alpha {c : Char} (letter : c.isAlpha = true) : isNameChar c = true := by
  simp [isNameChar, Char.isAlphanum, letter]

@[simp] theorem isNameChar_toUpper (c : Char) : isNameChar c.toUpper = isNameChar c :=
  class_toUpper true (fun _ => isNameChar_of_alpha) c

@[simp] theorem isNameStart_toUpper (c : Char) : isNameStart c.toUpper = isNameStart c :=
  class_toUpper true (fun _ letter => by simp [isNameStart, letter]) c

@[simp] theorem isBlank_toUpper (c : Char) : isBlank c.toUpper = isBlank c :=
  class_toUpper false (fun _ letter => isBlank_of_name (isNameChar_of_alpha letter)) c

@[simp] theorem isWordChar_toUpper (c : Char) : isWordChar c.toUpper = isWordChar c := by
  refine class_toUpper true (fun c letter => ?_) c
  have inRange {range : Nat × Nat} (listed : range ∈ wordCharRanges) (above : range.1 ≤ c.toNat)
      (below : c.toNat ≤ range.2) : isWordChar c = true :=
    List.any_eq_true.mpr ⟨range, listed, by simp [above, below]⟩
  have listedUpper : (0x41, 0x5A) ∈ wordCharRanges := .tail _ (.head _)
  have listedLower : (0x61, 0x7A) ∈ wordCharRanges := .tail _ (.tail _ (.tail _ (.head _)))
  rcases toNat_of_alpha letter with ⟨above, below⟩ | ⟨above, below⟩
  · exact inRange listedUpper above below
  · exact inRange listedLower above below

theorem toUpper_eq_iff {c sign : Char} (noLetter : sign.isAlpha = false) :
    c.toUpper = sign ↔ c = sign := by
  cases lower : c.isLower with
  | false => rw [toUpper_of_not_lower lower]
  | true =>
    have letter : c.isAlpha = true := (Bool.or_eq_true _ _).mpr (.inr lower)
    constructor
    · rintro rfl
      rw [isAlpha_toUpper letter] at noLetter
      cases noLetter
    · rintro rfl
      rw [letter] at noLetter
      cases noLetter

@[simp] theorem isSpacing_toUpper (c : Char) : isSpacing c.toUpper = isSpacing c := by
  refine class_toUpper false (fun c letter => ?_) c
  have other (sign : Char) (noLetter : sign.isAlpha = false) : (c == sign) = false := by
    rw [beq_eq_false_iff_ne]
    rintro rfl
    rw [letter] at noLetter
    cases noLetter
  simp [isSpacing, other _ (by decide : ' '.isAlpha = false),
    other _ (by decide : '\t'.isAlpha = false), other _ (by decide : '\n'.isAlpha = false),
    other _ (by decide : '\x0c'.isAlpha = false), other _ (by decide : '\r'.isAlpha = false)]

theorem class_eq {isClass : Char → Bool} (fixed : ∀ c, isClass c.toUpper = isClass c) {c d : Char}
    (letters : c.toUpper = d.toUpper) : isClass c = isClass d := by
  rw [← fixed, letters, fixed]

theorem beq_toUpper {sign : Char} (noLetter : sign.isAlpha = false) (c : Char) :
    (c.toUpper == sign) = (c == sign) := by
  rw [Bool.eq_iff_iff, beq_iff_eq, beq_iff_eq, toUpper_eq_iff noLetter]

theorem eq_sign_iff {c d sign : Char} (noLetter : sign.isAlpha = false)
    (letters : c.toUpper = d.toUpper) : c = sign ↔ d = sign := by
  rw [← toUpper_eq_iff noLetter, letters, toUpper_eq_iff noLetter]

theorem toUpper_toUpper (c : Char) : c.toUpper.toUpper = c.toUpper := by
  cases lower : c.isLower with
  | false => rw [toUpper_of_not_lower lower, toUpper_of_not_lower lower]
  | true =>
    apply toUpper_of_not_lower
    obtain ⟨-, below⟩ := (Bool.and_eq_true _ _).mp lower
    have most : c.toNat ≤ 122 := UInt32.le_iff_toNat_le.mp (of_decide_eq_true below)
    have moved := toNat_toUpper_of_lower lower
    refine (Bool.and_eq_false_iff).mpr (.inl (decide_eq_false ?_))
    intro above
    have least : 97 ≤ c.toUpper.toNat := UInt32.le_iff_toNat_le.mp above
    omega

theorem foldCase_toUpper (c : Char) : foldCase c.toUpper = foldCase c := by
  have long : c.toUpper = 'ſ' ↔ c = 'ſ' := toUpper_eq_iff (by decide)
  simp only [foldCase, long, toUpper_toUpper]

theorem utf8Size_toUpper (c : Char) : c.toUpper.utf8Size = c.utf8Size := by
  cases lower : c.isLower with
  | false => rw [toUpper_of_not_lower lower]
  | true =>
    obtain ⟨-, below⟩ := (Bool.and_eq_true _ _).mp lower
    have most : c.toNat ≤ 122 := UInt32.le_iff_toNat_le.mp (of_decide_eq_true below)
    have moved := toNat_toUpper_of_lower lower
    have ascii {d : Char} (small : d.toNat ≤ 127) : d.utf8Size = 1 :=
      Char.utf8Size_eq_one_iff.mpr (UInt32.le_iff_toNat_le.mpr small)
    rw [ascii (by omega), ascii (by omega)]

end Letters

section Capitals

@[simp] theorem capitals_nil : capitals [] = [] := rfl

@[simp] theorem capitals_cons (c : Char) (s : List Char) :
    capitals (c :: s) = c.toUpper :: capitals s := rfl

@[simp] theorem capitals_append (s t : List Char) :
    capitals (s ++ t) = capitals s ++ capitals t := List.map_append

@[simp] theorem length_capitals (s : List Char) : (capitals s).length = s.length :=
  List.length_map _

theorem capitals_takeWhile {isClass : Char → Bool} (fixed : ∀ c, isClass c.toUpper = isClass c)
    (s : List Char) : (capitals s).takeWhile isClass = capitals (s.takeWhile isClass) := by
  have sameClass : isClass ∘ Char.toUpper = isClass := funext fixed
  rw [capitals, List.takeWhile_map, sameClass, capitals]

theorem capitals_dropWhile {isClass : Char → Bool} (fixed : ∀ c, isClass c.toUpper = isClass c)
    (s : List Char) : (capitals s).dropWhile isClass = capitals (s.dropWhile isClass) := by
  have sameClass : isClass ∘ Char.toUpper = isClass := funext fixed
  rw [capitals, List.dropWhile_map, sameClass, capitals]

theorem width_capitals (s : List Char) : width (capitals s) = width s := by
  induction s with
  | nil => rfl
  | cons c s ih => simp [ih, utf8Size_toUpper]

def inCapitals (s : String) : String :=
  String.ofList (capitals s.toList)

@[simp] theorem inCapitals_ofList (s : List Char) :
    inCapitals (String.ofList s) = String.ofList (capitals s) := by
  rw [inCapitals, String.toList_ofList]

@[simp] theorem inCapitals_append (s t : String) :
    inCapitals (s ++ t) = inCapitals s ++ inCapitals t := by
  simp [inCapitals, String.toList_append]

theorem inCapitals_eq_empty (s : String) : inCapitals s = "" ↔ s = "" := by
  rw [← String.toList_inj, ← String.toList_inj, inCapitals, String.toList_ofList]
  exact List.map_eq_nil_iff

theorem capitals_intercalate (separator : List Char) (parts : List (List Char)) :
    capitals (separator.intercalate parts) =
      (capitals separator).intercalate (parts.map capitals) := by
  induction parts with
  | nil => rfl
  | cons part parts ih =>
    cases parts with
    | nil => simp [List.intercalate]
    | cons second parts =>
      simp only [List.intercalate, List.map_cons, List.intersperse_cons_cons, List.flatten_cons,
        capitals_append] at ih ⊢
      rw [ih]

theorem inCapitals_intercalate (separator : String) (texts : List String) :
    inCapitals (separator.intercalate texts) =
      (inCapitals separator).intercalate (texts.map inCapitals) := by
  have sameTexts : String.toList ∘ inCapitals = capitals ∘ String.toList :=
    funext fun text => String.toList_ofList
  rw [← String.toList_inj, inCapitals, String.toList_ofList, String.toList_intercalate,
    String.toList_intercalate, capitals_intercalate, inCapitals, String.toList_ofList,
    List.map_map, List.map_map, sameTexts]

end Capitals

namespace Recased

variable {s t u v : List Char}

theorem refl (s : List Char) : Recased s s :=
  ⟨rfl, fun _ _ _ => Iff.rfl⟩

theorem symm (alike : Recased s t) : Recased t s :=
  ⟨alike.letters.symm, fun keyword foreign n => (alike.keywords keyword foreign n).symm⟩

theorem length_eq (alike : Recased s t) : s.length = t.length := by
  simpa using congrArg List.length alike.letters

theorem width_eq (alike : Recased s t) : width s = width t := by
  rw [← width_capitals s, alike.letters, width_capitals]

theorem nil_iff (alike : Recased s t) : s = [] ↔ t = [] := by
  rw [← List.length_eq_zero_iff, alike.length_eq, List.length_eq_zero_iff]

theorem drop (alike : Recased s t) (n : Nat) : Recased (s.drop n) (t.drop n) := by
  constructor
  · simp only [capitals, List.map_drop]
    exact congrArg (List.drop n) alike.letters
  · intro keyword foreign m
    simpa only [List.drop_drop] using alike.keywords keyword foreign (n + m)

theorem take (alike : Recased s t) (n : Nat) : Recased (s.take n) (t.take n) := by
  constructor
  · simp only [capitals, List.map_take]
    exact congrArg (List.take n) alike.letters
  · intro keyword foreign m
    simp only [List.drop_take, List.prefix_take_iff, alike.keywords keyword foreign m]

theorem parts (alike : Recased (s ++ u) (t ++ v)) (lengths : s.length = t.length) :
    Recased s t ∧ Recased u v := by
  have before := alike.take s.length
  have after := alike.drop s.length
  rw [List.take_left, lengths, List.take_left] at before
  rw [List.drop_left, lengths, List.drop_left] at after
  exact ⟨before, after⟩

theorem eq_iff (alike : Recased s t) {keyword : List Char} (foreign : Foreign keyword) :
    keyword = s ↔ keyword = t := by
  have begins := alike.keywords keyword foreign 0
  simp only [List.drop_zero] at begins
  constructor
  · rintro rfl
    exact (begins.mp List.prefix_rfl).eq_of_length alike.length_eq
  · rintro rfl
    exact (begins.mpr List.prefix_rfl).eq_of_length alike.length_eq.symm

theorem cons_elim {c : Char} (alike : Recased (c :: s) t) :
    ∃ d rest, t = d :: rest ∧ c.toUpper = d.toUpper ∧ Recased s rest := by
  cases t with
  | nil => cases alike.nil_iff.mpr rfl
  | cons d rest =>
    have letters := alike.letters
    simp only [capitals_cons, List.cons.injEq] at letters
    exact ⟨d, rest, rfl, letters.1, by simpa using alike.drop 1⟩

theorem of_prefix {cut : List Char → List Char} (part : ∀ s, cut s <+: s)
    (commutes : ∀ s, cut (capitals s) = capitals (cut s)) (alike : Recased s t) :
    Recased (cut s) (cut t) := by
  have lengths : (cut s).length = (cut t).length := by
    rw [← length_capitals (cut s), ← commutes, alike.letters, commutes, length_capitals]
  obtain ⟨rest, whole⟩ := part s
  obtain ⟨other, otherWhole⟩ := part t
  rw [← whole, ← otherWhole] at alike
  exact (alike.parts lengths).1

theorem of_suffix {cut : List Char → List Char} (part : ∀ s, cut s <:+ s)
    (commutes : ∀ s, cut (capitals s) = capitals (cut s)) (alike : Recased s t) :
    Recased (cut s) (cut t) := by
  have lengths : (cut s).length = (cut t).length := by
    rw [← length_capitals (cut s), ← commutes, alike.letters, commutes, length_capitals]
  obtain ⟨rest, whole⟩ := part s
  obtain ⟨other, otherWhole⟩ := part t
  rw [← whole, ← otherWhole] at alike
  have total := alike.length_eq
  simp only [List.length_append, lengths, Nat.add_right_cancel_iff] at total
  exact (alike.parts total).2

theorem takeWhile (alike : Recased s t) {isClass : Char → Bool}
    (fixed : ∀ c, isClass c.toUpper = isClass c) :
    Recased (s.takeWhile isClass) (t.takeWhile isClass) :=
  alike.of_prefix (fun _ => List.takeWhile_prefix isClass) (capitals_takeWhile fixed)

theorem dropWhile (alike : Recased s t) {isClass : Char → Bool}
    (fixed : ∀ c, isClass c.toUpper = isClass c) :
    Recased (s.dropWhile isClass) (t.dropWhile isClass) :=
  alike.of_suffix (fun _ => List.dropWhile_suffix isClass) (capitals_dropWhile fixed)

theorem map_capitals {pieces others : List (List Char)}
    (same : List.Forall₂ Recased pieces others) :
    pieces.map capitals = others.map capitals := by
  induction same with
  | nil => rfl
  | cons first _ ih => rw [List.map_cons, List.map_cons, first.letters, ih]

theorem flatten_parts {pieces others : List (List Char)}
    (alike : Recased pieces.flatten others.flatten)
    (lengths : pieces.map List.length = others.map List.length) :
    List.Forall₂ Recased pieces others := by
  induction pieces generalizing others with
  | nil =>
    obtain rfl : others = [] := List.map_eq_nil_iff.mp lengths.symm
    exact .nil
  | cons piece pieces ih =>
    obtain ⟨other, others, rfl, first, rest⟩ := List.map_eq_cons_iff.mp lengths.symm
    obtain ⟨here, later⟩ := alike.parts first.symm
    exact .cons here (ih later rest.symm)

end Recased

def WordBreak (s u : List Char) : Prop :=
  (∀ c ∈ s.getLast?, isNameChar c = false) ∨ ∀ c ∈ u.head?, isNameChar c = false

namespace WordBreak

theorem of_letters {s t u v : List Char} (stops : WordBreak s u) (first : capitals s = capitals t)
    (second : capitals u = capitals v) : WordBreak t v := by
  rcases stops with ends | begins
  · left
    intro c isLast
    have sameLast := congrArg List.getLast? first
    simp only [capitals, List.getLast?_map, Option.mem_def.mp isLast, Option.map_some] at sameLast
    obtain ⟨d, isOther, same⟩ := Option.map_eq_some_iff.mp sameLast
    rw [← isNameChar_toUpper, ← same, isNameChar_toUpper]
    exact ends d isOther
  · right
    intro c isFirst
    have sameFirst := congrArg List.head? second
    simp only [capitals, List.head?_map, Option.mem_def.mp isFirst, Option.map_some] at sameFirst
    obtain ⟨d, isOther, same⟩ := Option.map_eq_some_iff.mp sameFirst
    rw [← isNameChar_toUpper, ← same, isNameChar_toUpper]
    exact begins d isOther

theorem prefix_append_iff {s u keyword : List Char} (stops : WordBreak s u)
    (characters : ∀ c ∈ keyword, isNameChar c = true) (nonempty : s ≠ []) :
    keyword <+: s ++ u ↔ keyword <+: s := by
  refine ⟨fun begins => ?_, fun begins => begins.trans (List.prefix_append s u)⟩
  rcases List.prefix_or_prefix_of_prefix begins (List.prefix_append s u) with within | ⟨more, rfl⟩
  · exact within
  · have inSecond : more <+: u := (List.prefix_append_right_inj s).mp begins
    cases more with
    | nil => simp
    | cons c more =>
      -- The word holds the last character of the first text and the first of the second.
      exfalso
      rcases stops with ends | first
      · have noName := ends _ (List.getLast?_eq_some_getLast nonempty)
        rw [characters _ (List.mem_append_left _ (List.getLast_mem nonempty))] at noName
        cases noName
      · obtain ⟨rest, rfl⟩ := inSecond
        have noName := first c rfl
        rw [characters c (by simp)] at noName
        cases noName

end WordBreak

theorem Recased.append {s t u v : List Char} (first : Recased s t) (second : Recased u v)
    (stops : WordBreak s u) : Recased (s ++ u) (t ++ v) := by
  refine ⟨by simp [first.letters, second.letters], fun keyword foreign n => ?_⟩
  have otherStops := stops.of_letters first.letters second.letters
  have within {a b : List Char} (stops : WordBreak a b) (inside : n < a.length) :
      keyword <+: (a ++ b).drop n ↔ keyword <+: a.drop n := by
    rw [List.drop_append_of_le_length (Nat.le_of_lt inside)]
    refine WordBreak.prefix_append_iff ?_ foreign.characters (by simpa using inside)
    rcases stops with ends | begins
    · left
      rwa [List.getLast?_drop, if_neg (by omega)]
    · exact .inr begins
  by_cases inside : n < s.length
  · rw [within stops inside, within otherStops (first.length_eq ▸ inside)]
    exact first.keywords keyword foreign n
  · have behind {a b : List Char} (past : a.length ≤ n) :
        (a ++ b).drop n = b.drop (n - a.length) := by
      rw [List.drop_append, List.drop_eq_nil_of_le past, List.nil_append]
    have past : s.length ≤ n := by omega
    rw [behind past, behind (first.length_eq ▸ past), first.length_eq]
    exact second.keywords keyword foreign _

section Respelled

-- A word is a maximal run of ASCII letters, digits and underscores. Every other character is a part
-- of its own.
def wordsAndSigns (s : List Char) : List (List Char) :=
  s.splitBy fun c d => isNameChar c && isNameChar d

def SameWord (u v : List Char) : Prop :=
  u = v ∨ (∃ keyword ∈ conditionalKeywords, capitals u = keyword.toList) ∧ capitals u = capitals v

instance (u v : List Char) : Decidable (SameWord u v) :=
  inferInstanceAs (Decidable (_ ∨ _))

def Respelled (s t : List Char) : Prop :=
  ∃ parts, List.Forall₂ SameWord (wordsAndSigns s) parts ∧ t = parts.flatten

theorem SameWord.recased {u v : List Char} (same : SameWord u v) : Recased u v := by
  rcases same with rfl | ⟨⟨other, listed, isOther⟩, letters⟩
  · exact .refl u
  · refine ⟨letters, fun keyword foreign n => ?_⟩
    -- No foreign word stands anywhere in a keyword of conditionals.
    have absent {w : List Char} (isOther : capitals w = other.toList) :
        ¬ keyword <+: w.drop n := by
      intro begins
      have part : keyword <:+: w := begins.isInfix.trans (List.drop_suffix n w).isInfix
      exact foreign.noPart other listed (isOther ▸ part.map Char.toUpper)
    exact iff_of_false (absent isOther) (absent (letters ▸ isOther))

theorem recased_flatten {parts others : List (List Char)}
    (same : List.Forall₂ SameWord parts others)
    (breaks : parts.IsChain fun u v => ∃ (inFirst : u ≠ []) (inSecond : v ≠ []),
      (isNameChar (u.getLast inFirst) && isNameChar (v.head inSecond)) = false) :
    Recased parts.flatten others.flatten := by
  induction same with
  | nil => exact .refl []
  | @cons part other parts others first _ ih =>
    obtain ⟨next, rest⟩ := List.isChain_cons.mp breaks
    refine first.recased.append (ih rest) ?_
    cases parts with
    | nil => exact .inr (by simp)
    | cons second parts =>
      obtain ⟨inFirst, inSecond, stops⟩ := next second rfl
      rcases Bool.and_eq_false_iff.mp stops with ends | begins
      · left
        simpa [List.getLast?_eq_some_getLast inFirst] using ends
      · right
        obtain ⟨c, second, rfl⟩ := List.exists_cons_of_ne_nil inSecond
        simpa using begins

theorem Respelled.recased {s t : List Char} (respelled : Respelled s t) : Recased s t := by
  obtain ⟨parts, same, rfl⟩ := respelled
  have breaks := List.isChain_getLast_head_splitBy (fun c d => isNameChar c && isNameChar d) s
  have whole := recased_flatten same breaks
  rwa [wordsAndSigns, List.flatten_splitBy] at whole

end Respelled

end StructuredText
