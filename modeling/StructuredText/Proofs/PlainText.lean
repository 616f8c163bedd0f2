import Mathlib.Data.List.Chain
import Mathlib.Data.List.Infix
import Mathlib.Data.List.TakeWhile
import StructuredText.Comment
import StructuredText.Keyword

set_option autoImplicit false

namespace StructuredText

def runs (cut : Char → Bool) (s : List Char) : List (List Char) :=
  (splitWhere cut s).filter fun run => !run.isEmpty

def asciiWords (s : List Char) : List (List Char) :=
  runs (!isNameChar ·) s

def commentMarkers : List String :=
  ["//", "(*", "/*"]

structure PlainText (s : List Char) : Prop where
  nonempty : s ≠ []
  trimmed : trim s = s
  characters : ∀ c ∈ s, c ∉ ['\n', '\x27', '\x22', '\x7b', ';']
  markers : ∀ marker ∈ commentMarkers, ¬ marker.toList <:+: s
  words : ∀ word ∈ asciiWords s, Cut.ofWord? word = none

theorem forall_tails_iff {part s : List Char} :
    (∀ tail ∈ s.tails, ¬ part <+: tail) ↔ ¬ part <:+: s := by
  simp only [List.mem_tails, List.infix_iff_prefix_suffix, not_exists, not_and]
  exact ⟨fun absent tail begins isTail => absent tail isTail begins,
    fun absent tail isTail begins => absent tail begins isTail⟩

instance (s : List Char) : Decidable (PlainText s) :=
  decidable_of_iff
    (s ≠ [] ∧ trim s = s ∧
      (s.all fun c => decide (c ∉ ['\n', '\x27', '\x22', '\x7b', ';'])) = true ∧
      (∀ marker ∈ commentMarkers, ∀ tail ∈ s.tails, ¬ marker.toList <+: tail) ∧
      ∀ word ∈ asciiWords s, Cut.ofWord? word = none)
    ⟨fun ⟨nonempty, trimmed, characters, markers, words⟩ =>
        ⟨nonempty, trimmed, by simpa using characters,
          fun marker member => forall_tails_iff.mp (markers marker member), words⟩,
      fun plain =>
        ⟨plain.nonempty, plain.trimmed, by simpa using plain.characters,
          fun marker member => forall_tails_iff.mpr (plain.markers marker member), plain.words⟩⟩

theorem toNat_of_name {c : Char} (isName : isNameChar c = true) :
    '0'.toNat ≤ c.toNat ∧ c.toNat ≤ 'z'.toNat := by
  have within {low high : Char} (above : low.val ≤ c.val) (below : c.val ≤ high.val)
      (least : '0'.toNat ≤ low.toNat) (most : high.toNat ≤ 'z'.toNat) :
      '0'.toNat ≤ c.toNat ∧ c.toNat ≤ 'z'.toNat :=
    ⟨least.trans (UInt32.le_iff_toNat_le.mp above), (UInt32.le_iff_toNat_le.mp below).trans most⟩
  rcases (Bool.or_eq_true _ _).mp isName with alphanumeric | underscore
  · rcases (Bool.or_eq_true _ _).mp alphanumeric with letter | digit
    · rcases (Bool.or_eq_true _ _).mp letter with upper | lower
      · obtain ⟨above, below⟩ := of_decide_eq_true upper
        exact within above below (by decide) (by decide)
      · obtain ⟨above, below⟩ := (Bool.and_eq_true _ _).mp lower
        exact within (of_decide_eq_true above) (of_decide_eq_true below) (by decide) (by decide)
    · obtain ⟨above, below⟩ := Char.isDigit_iff_toNat.mp digit
      exact ⟨above, below.trans (by decide)⟩
  · obtain rfl : c = '_' := beq_iff_eq.mp underscore
    decide

theorem isBlank_of_name {c : Char} (isName : isNameChar c = true) : isBlank c = false := by
  obtain ⟨above, below⟩ := toNat_of_name isName
  have zero : '0'.toNat = 48 := rfl
  have z : 'z'.toNat = 122 := rfl
  simp only [isBlank, inRanges, blankRanges, List.any_cons, List.any_nil, Bool.or_eq_false_iff,
    Bool.and_eq_false_iff, decide_eq_false_iff_not, and_true]
  omega

theorem notName_of_blank {c : Char} (blank : isBlank c = true) : isNameChar c = false := by
  by_contra isName
  have notBlank := isBlank_of_name (Bool.not_eq_false _ ▸ isName)
  rw [blank] at notBlank
  cases notBlank

section Cut

variable {x : Char} {before after front back : List Char}

theorem cut_behind (absent : x ∉ before) (whole : before ++ after = front ++ x :: back) :
    ∃ later, front = before ++ later ∧ after = later ++ x :: back := by
  rcases List.append_eq_append_iff.mp whole with ⟨tail, rfl, rest⟩ | ⟨tail, rfl, rest⟩
  · exact ⟨tail, rfl, rest⟩
  · cases tail with
    | nil => exact ⟨[], by simp, rest.symm⟩
    | cons c tail =>
      obtain ⟨rfl, -⟩ := List.cons.inj rest
      exact absurd (List.mem_append_right _ List.mem_cons_self) absent

theorem cut_at_first (absent : x ∉ before) (whole : before ++ x :: after = front ++ x :: back) :
    front = before ∨ ∃ between, front = before ++ x :: between ∧ after = between ++ x :: back := by
  obtain ⟨later, rfl, rest⟩ := cut_behind absent whole
  cases later with
  | nil => exact .inl (List.append_nil before)
  | cons c later =>
    obtain ⟨rfl, rfl⟩ := List.cons.inj rest
    exact .inr ⟨later, rfl, rfl⟩

end Cut

theorem stops_dropWhile (p : Char → Bool) (s : List Char) :
    ∀ c ∈ (s.dropWhile p).head?, p c = false := by
  intro c first
  have stops := List.head?_dropWhile_not p s
  rwa [Option.mem_def.mp first] at stops

section Trim

theorem trimStart_of_head {s : List Char} (first : ∀ c ∈ s.head?, isBlank c = false) :
    trimStart s = s := by
  cases s with
  | nil => rfl
  | cons c s => simp [trimStart, first c rfl]

theorem trimEnd_of_last {s : List Char} (last : ∀ c ∈ s.getLast?, isBlank c = false) :
    trimEnd s = s := by
  have reversed : trimStart s.reverse = s.reverse := trimStart_of_head (by simpa using last)
  rw [trimStart] at reversed
  rw [trimEnd, reversed, List.reverse_reverse]

theorem trim_of_ends {s : List Char} (first : ∀ c ∈ s.head?, isBlank c = false)
    (last : ∀ c ∈ s.getLast?, isBlank c = false) : trim s = s := by
  rw [trim, trimStart_of_head first, trimEnd_of_last last]

theorem trim_of_name {word : List Char} (isName : ∀ c ∈ word, isNameChar c = true) :
    trim word = word :=
  trim_of_ends (fun c first => isBlank_of_name (isName c (List.mem_of_mem_head? first)))
    (fun c last => isBlank_of_name (isName c (List.mem_of_mem_getLast? last)))

theorem trimStart_blank_append {blank : List Char} (isBlank : ∀ c ∈ blank, isBlank c = true)
    (s : List Char) : trimStart (blank ++ s) = trimStart s :=
  List.dropWhile_append_of_pos isBlank

theorem trimEnd_append_blank {blank : List Char} (isBlank : ∀ c ∈ blank, isBlank c = true)
    (s : List Char) : trimEnd (s ++ blank) = trimEnd s := by
  have reversed : trimStart (blank.reverse ++ s.reverse) = trimStart s.reverse :=
    trimStart_blank_append (by simpa using isBlank) s.reverse
  simp only [trimStart] at reversed
  rw [trimEnd, List.reverse_append, reversed, trimEnd]

theorem isBlank_of_mem_space : ∀ c ∈ [' '], isBlank c = true :=
  List.all_eq_true.mp (by decide)

theorem trimStart_of_trim {s : List Char} (trimmed : trim s = s) : trimStart s = s := by
  have dropped : (trimEnd (trimStart s)).length ≤ (trimStart s).length := by
    have shorter := (List.dropWhile_suffix isBlank (l := (trimStart s).reverse)).length_le
    simpa [trimEnd] using shorter
  rw [← trim, trimmed] at dropped
  exact (trimStart_suffix s).eq_of_length (Nat.le_antisymm (trimStart_length_le s) dropped)

theorem trimEnd_of_trim {s : List Char} (trimmed : trim s = s) : trimEnd s = s := by
  have whole := trimmed
  rwa [trim, trimStart_of_trim trimmed] at whole

theorem trim_blank_append {blank : List Char} (isBlank : ∀ c ∈ blank, isBlank c = true)
    (s : List Char) : trim (blank ++ s) = trim s := by
  rw [trim, trimStart_blank_append isBlank, trim]

theorem trim_append_blank {blank : List Char} (isBlank : ∀ c ∈ blank, isBlank c = true)
    (s : List Char) : trim (s ++ blank) = trim s := by
  simp only [trim, trimStart, List.dropWhile_append]
  split
  · rename_i empty
    rw [List.isEmpty_iff.mp empty, List.dropWhile_eq_nil_iff.mpr isBlank]
  · exact trimEnd_append_blank isBlank _

theorem head_of_trimStart {s : List Char} (trimmed : trimStart s = s) :
    ∀ c ∈ s.head?, isBlank c = false := by
  have stops := stops_dropWhile isBlank s
  rwa [← trimStart, trimmed] at stops

theorem last_of_trim {s : List Char} (trimmed : trim s = s) :
    ∀ c ∈ s.getLast?, isBlank c = false := by
  have reversed : trimStart s.reverse = s.reverse := by
    rw [← List.reverse_inj, List.reverse_reverse]
    exact trimEnd_of_trim trimmed
  simpa using head_of_trimStart reversed

end Trim

theorem lines_append {line : List Char} (inLine : '\n' ∉ line)
    (last : line.getLast? ≠ some '\r') (rest : List Char) :
    lines (line ++ '\n' :: rest) = line :: lines rest := by
  induction line with
  | nil => simp [lines]
  | cons c line ih =>
    obtain ⟨notHere, notLater⟩ := not_or.mp (List.mem_cons.not.mp inLine)
    have keeps : ∀ after, c = '\r' → line ++ '\n' :: rest = '\n' :: after → False := by
      intro after isReturn split
      cases line with
      | nil => exact last (by simp [isReturn])
      | cons d line =>
        obtain ⟨rfl, -⟩ := List.cons.inj split
        exact notLater List.mem_cons_self
    have later : lines (line ++ '\n' :: rest) = line :: lines rest := by
      apply ih notLater
      cases line with
      | nil => simp
      | cons d line => simpa using last
    rw [List.cons_append, lines, later]
    · rfl
    · exact Ne.symm notHere
    · exact keeps

def Apart (x y : Char) : Prop :=
  ¬ (x = '/' ∧ y = '/') ∧ ¬ (x = '(' ∧ y = '*') ∧ ¬ (x = '/' ∧ y = '*')

theorem Segment.next_of_apart {c : Char} {s : List Char} (unquoted : stringClose? c = none)
    (apart : ∀ d ∈ s.head?, Apart c d) : next c s = (code [c], s) := by
  simp only [next, unquoted]
  split
  · exact absurd ⟨rfl, rfl⟩ (apart '/' rfl).1
  · exact absurd ⟨rfl, rfl⟩ (apart '*' rfl).2.1
  · exact absurd ⟨rfl, rfl⟩ (apart '*' rfl).2.2
  · rfl

def Uncommented (s : List Char) : Prop :=
  ∀ part ∈ segments s, part.isCode = true

theorem blanked_of_isCode {part : Segment} (isCode : part.isCode = true) :
    part.blanked = part.text := by
  cases part with
  | code text => rfl
  | comment text note stillOpen => cases isCode

theorem commentsFrom_of_isCode {parts : List Segment} (areCode : ∀ part ∈ parts, part.isCode = true)
    (offset : Nat) : commentsFrom offset parts = [] := by
  induction parts generalizing offset with
  | nil => rfl
  | cons part parts ih =>
    cases part with
    | code text => exact ih (fun other member => areCode other (List.mem_cons_of_mem _ member)) _
    | comment text note stillOpen => cases areCode _ List.mem_cons_self

theorem Uncommented.strip {s : List Char} (uncommented : Uncommented s) (number : Nat) :
    strip none s number = (⟨s, []⟩, none) := by
  have code : (segments s).flatMap Segment.blanked = s := by
    nth_rewrite 2 [← flatMap_text_segments s]
    exact List.flatMap_congr fun part member => blanked_of_isCode (uncommented part member)
  have closed : (segments s).getLast?.bind Segment.stillOpen? = none := by
    cases last : (segments s).getLast? with
    | none => rfl
    | some part =>
      cases part with
      | code text => rfl
      | comment text note stillOpen => cases uncommented _ (List.mem_of_mem_getLast? last)
  simp only [StructuredText.strip, strip.finish, StrippedLine.ofSegments, code, closed,
    commentsFrom_of_isCode uncommented, Option.map_none]

structure Bare (s : List Char) : Prop where
  characters : ∀ c ∈ s, c ≠ '\n' ∧ quoteClose? c = none
  apart : s.IsChain Apart

namespace Bare

variable {s t : List Char} {c : Char}

theorem nil : Bare [] :=
  ⟨by simp, .nil⟩

theorem cons (bare : Bare s) (plain : c ≠ '\n' ∧ quoteClose? c = none)
    (first : c ≠ '/' ∧ c ≠ '(') : Bare (c :: s) := by
  refine ⟨?_, ?_⟩
  · intro d member
    rcases List.mem_cons.mp member with rfl | member
    · exact plain
    · exact bare.characters d member
  · rw [List.isChain_cons]
    exact ⟨by simp [Apart, first], bare.apart⟩

theorem append_cons (before : Bare s) (after : Bare (c :: t)) (second : c ≠ '/' ∧ c ≠ '*') :
    Bare (s ++ c :: t) := by
  refine ⟨?_, ?_⟩
  · intro d member
    rcases List.mem_append.mp member with member | member
    · exact before.characters d member
    · exact after.characters d member
  · rw [List.isChain_append]
    exact ⟨before.apart, after.apart, by simp [Apart, second]⟩

theorem stringClose? (bare : Bare (c :: s)) : stringClose? c = none := by
  have closes := (bare.characters c List.mem_cons_self).2
  unfold quoteClose? at closes
  split at closes
  · cases closes
  · exact closes

theorem segments (bare : Bare s) : segments s = s.map fun c => .code [c] := by
  induction s with
  | nil => simp [StructuredText.segments]
  | cons c s ih =>
    have next : Segment.next c s = (.code [c], s) :=
      Segment.next_of_apart bare.stringClose? (List.isChain_cons.mp bare.apart).1
    have rest : Bare s :=
      ⟨fun d member => bare.characters d (List.mem_cons_of_mem c member), bare.apart.of_cons⟩
    rw [StructuredText.segments, next, ih rest, List.map_cons]

end Bare

namespace PlainText

variable {s : List Char}

theorem head_not_blank (plain : PlainText s) : ∀ c ∈ s.head?, isBlank c = false :=
  head_of_trimStart (trimStart_of_trim plain.trimmed)

theorem last_not_blank (plain : PlainText s) : ∀ c ∈ s.getLast?, isBlank c = false :=
  last_of_trim plain.trimmed

theorem bare (plain : PlainText s) : Bare s := by
  refine ⟨?_, ?_⟩
  · intro c member
    have allowed := plain.characters c member
    simp only [List.mem_cons, List.not_mem_nil, or_false, not_or] at allowed
    simp [quoteClose?, StructuredText.stringClose?, allowed]
  · rw [List.isChain_iff_forall_rel_of_append_cons_cons]
    intro x y before after split
    have absent : ∀ marker ∈ commentMarkers, marker.toList ≠ [x, y] := by
      intro marker member isMarker
      apply plain.markers marker member
      rw [isMarker]
      exact ⟨before, after, by simp [split]⟩
    simp only [commentMarkers, List.mem_cons, List.not_mem_nil, or_false, forall_eq_or_imp,
      forall_eq] at absent
    obtain ⟨slashes, paren, star⟩ := absent
    refine ⟨?_, ?_, ?_⟩
    · rintro ⟨rfl, rfl⟩
      exact slashes rfl
    · rintro ⟨rfl, rfl⟩
      exact paren rfl
    · rintro ⟨rfl, rfl⟩
      exact star rfl

theorem oneLine (plain : PlainText s) : '\n' ∉ s :=
  fun member => (plain.bare.characters _ member).1 rfl

end PlainText

end StructuredText
