import StructuredText.Proofs.AtomicFragments

set_option autoImplicit false

namespace StructuredText

structure Settled (s : List Char) : Prop where
  uncommented : Uncommented s
  goesOn : ∀ t, (∀ c ∈ s.getLast?, ∀ d ∈ t.head?, Apart c d) →
    segments (s ++ t) = segments s ++ segments t

namespace Settled

variable {s t : List Char} {c : Char}

theorem append (before : Settled s) (after : Settled t)
    (apart : ∀ c ∈ s.getLast?, ∀ d ∈ t.head?, Apart c d) : Settled (s ++ t) := by
  have both := before.goesOn t apart
  refine ⟨?_, fun u behind => ?_⟩
  · intro part member
    rw [both] at member
    rcases List.mem_append.mp member with inFirst | inSecond
    · exact before.uncommented part inFirst
    · exact after.uncommented part inSecond
  · cases t with
    | nil => simpa [segments] using before.goesOn u (by simpa using behind)
    | cons d t =>
      rw [List.append_assoc, before.goesOn _ (by simpa using apart),
        after.goesOn u (by simpa [List.getLast?_append, List.getLast?_cons] using behind), both,
        List.append_assoc]

theorem append_cons (before : Settled s) (after : Settled (c :: t))
    (second : c ≠ '/' ∧ c ≠ '*') : Settled (s ++ c :: t) :=
  before.append after (by simp [Apart, second])

end Settled

section Bare

variable {s : List Char} (bare : Bare s)

include bare

theorem segments_append {t : List Char}
    (apart : ∀ c ∈ s.getLast?, ∀ d ∈ t.head?, Apart c d) :
    segments (s ++ t) = s.map (fun c => .code [c]) ++ segments t := by
  induction s with
  | nil => rfl
  | cons c s ih =>
    have rest : Bare s :=
      ⟨fun d member => bare.characters d (List.mem_cons_of_mem c member), bare.apart.of_cons⟩
    have next : Segment.next c (s ++ t) = (.code [c], s ++ t) := by
      refine Segment.next_of_apart bare.stringClose? ?_
      cases s with
      | nil => simpa using apart
      | cons d s => simpa using (List.isChain_cons.mp bare.apart).1
    have later : ∀ e ∈ s.getLast?, ∀ d ∈ t.head?, Apart e d := by
      cases s with
      | nil => simp
      | cons d s => simpa using apart
    rw [List.cons_append, segments, next, ih rest later, List.map_cons, List.cons_append]

theorem Bare.settled : Settled s := by
  refine ⟨fun part member => ?_, fun t apart => ?_⟩
  · rw [bare.segments] at member
    obtain ⟨c, -, rfl⟩ := List.mem_map.mp member
    rfl
  · rw [segments_append bare apart, bare.segments]

end Bare

structure OnePiece (s : List Char) : Prop where
  closed : Scan.outside.after s = .outside
  uncut : ∀ l ∈ lexemes s, l.IsUncut

namespace OnePiece

variable {s t : List Char} {c : Char}

theorem append (before : OnePiece s) (after : OnePiece t)
    (apart : ∀ d ∈ t.head?, isNameChar d = false) : OnePiece (s ++ t) := by
  refine ⟨?_, fun l member => ?_⟩
  · rw [Scan.after_append, before.closed, after.closed]
  · rw [lexemes_append_of_closed before.closed fun _ _ _ => apart] at member
    rcases List.mem_append.mp member with inFirst | inSecond
    · exact before.uncut l inFirst
    · exact after.uncut l inSecond

theorem cons (piece : OnePiece s) (safe : quoteClose? c = none ∧ c ≠ ';')
    (apart : isNameChar c = false) : OnePiece (c :: s) := by
  refine ⟨?_, fun l member => ?_⟩
  · rw [Scan.after_cons, Scan.next_outside, safe.1]
    exact piece.closed
  · rw [lexemes, Lexeme.next_of_other safe.1 safe.2 apart] at member
    rcases List.mem_cons.mp member with rfl | later
    · trivial
    · exact piece.uncut l later

end OnePiece

theorem Uncut.onePiece {s : List Char} (uncut : Uncut s) : OnePiece s :=
  ⟨Scan.after_unquoted fun c member => (uncut.characters c member).1, uncut.isUncut_of_mem⟩

/-- A text that can stand in a line of code without being cut there. In its strings there may be
anything but the end of the line. -/
structure InlineText (s : List Char) : Prop extends OnePiece s where
  nonempty : s ≠ []
  trimmed : trim s = s
  oneLine : '\n' ∉ s
  uncommented : Uncommented s
  noPragma : ∀ l ∈ lexemes s, l.text.head? ≠ some '\x7b'

instance (s : List Char) : Decidable (InlineText s) :=
  decidable_of_iff
    ((Scan.outside.after s = .outside ∧ ∀ l ∈ lexemes s, l.IsUncut) ∧
      s ≠ [] ∧ trim s = s ∧ '\n' ∉ s ∧ (∀ part ∈ segments s, part.isCode = true) ∧
      ∀ l ∈ lexemes s, l.text.head? ≠ some '\x7b')
    ⟨fun ⟨⟨closed, uncut⟩, nonempty, trimmed, oneLine, uncommented, noPragma⟩ =>
        ⟨⟨closed, uncut⟩, nonempty, trimmed, oneLine, uncommented, noPragma⟩,
      fun inline => ⟨⟨inline.closed, inline.uncut⟩, inline.nonempty, inline.trimmed,
        inline.oneLine, inline.uncommented, inline.noPragma⟩⟩

section Settled

variable {c : Char} {s : List Char}

theorem Segment.apart_of_isCode (isCode : (next c s).1.isCode = true) :
    ∀ d ∈ s.head?, Apart c d := by
  have noBlock {style : CommentStyle} {t : List Char} : (block style t).1.isCode = false := by
    unfold block
    split <;> rfl
  rintro d first
  obtain ⟨rest, rfl⟩ := List.head?_eq_some_iff.mp first
  refine ⟨?_, ?_, ?_⟩
  · rintro ⟨rfl, rfl⟩
    cases isCode
  · rintro ⟨rfl, rfl⟩
    exact absurd isCode (Bool.eq_false_iff.mp noBlock)
  · rintro ⟨rfl, rfl⟩
    exact absurd isCode (Bool.eq_false_iff.mp noBlock)

theorem segments_append_of_closed (closed : Scan.outside.after s = .outside)
    (noPragma : ∀ front back, s = front ++ '\x7b' :: back → Scan.outside.after front ≠ .outside)
    (uncommented : Uncommented s) {t : List Char}
    (apart : ∀ c ∈ s.getLast?, ∀ d ∈ t.head?, Apart c d) :
    segments (s ++ t) = segments s ++ segments t := by
  fun_induction segments s with
  | case1 => rfl
  | case2 c s ih =>
    have whole := Segment.next_text c s
    have isCode : (Segment.next c s).1.isCode = true := by
      refine uncommented _ ?_
      rw [segments]
      exact List.mem_cons_self
    have later : Uncommented (Segment.next c s).2 := by
      intro part member
      refine uncommented part ?_
      rw [segments]
      exact List.mem_cons_of_mem _ member
    have lastOfRest : ∀ e ∈ (Segment.next c s).2.getLast?, e ∈ (c :: s).getLast? := by
      intro e last
      rw [← whole, List.getLast?_append, Option.mem_def.mp last]
      rfl
    -- The first stretch is read alike in front of `t`, and behind it no string is open.
    obtain ⟨goesOn, outside⟩ :
        Segment.next c (s ++ t) = ((Segment.next c s).1, (Segment.next c s).2 ++ t) ∧
          ((Segment.next c s).2 ≠ [] →
            Scan.outside.after (Segment.next c s).1.text = .outside) := by
      cases opens : stringClose? c with
      | some close =>
        have quote := quoteClose?_of_string opens
        have noEscape := quoteClose?_ne_escape quote
        have inside : (Scan.inside close).after s = .outside := by
          rwa [Scan.after_cons, Scan.next_outside, quote] at closed
        have reads (rest : List Char) : Segment.next c rest =
            (.code (c :: (splitQuoted close rest).1), (splitQuoted close rest).2) := by
          simp [Segment.next, opens]
        simp only [reads, splitQuoted_append_of_closed noEscape inside, true_and, Segment.text]
        intro followed
        rw [Scan.after_cons, Scan.next_outside, quote]
        exact (Scan.after_splitQuoted noEscape s).resolve_right followed
      | none =>
        have noBrace : c ≠ '\x7b' := fun isBrace => noPragma [] s (by rw [isBrace]; rfl) rfl
        have unquoted : quoteClose? c = none := by rw [quoteClose?, if_neg noBrace, opens]
        have apartHere := Segment.apart_of_isCode isCode
        have apartBehind : ∀ d ∈ (s ++ t).head?, Apart c d := by
          cases s with
          | nil => simpa using apart
          | cons d s => simpa using apartHere
        rw [Segment.next_of_apart opens apartHere, Segment.next_of_apart opens apartBehind]
        exact ⟨rfl, fun _ => Scan.after_unquoted (by simpa [Segment.text] using unquoted)⟩
    rw [List.cons_append, segments, goesOn, ih _ _ later fun e last => apart e (lastOfRest e last),
      List.cons_append]
    · by_cases followed : (Segment.next c s).2 = []
      · rw [followed]
        rfl
      · rwa [← whole, Scan.after_append, outside followed] at closed
    · rintro front back isRest
      have followed : (Segment.next c s).2 ≠ [] := by simp [isRest]
      have inside := noPragma ((Segment.next c s).1.text ++ front) back (by
        rw [List.append_assoc, ← isRest, whole])
      rwa [Scan.after_append, outside followed] at inside

end Settled

theorem InlineText.settled {s : List Char} (inline : InlineText s) : Settled s := by
  refine ⟨inline.uncommented, fun t apart => ?_⟩
  refine segments_append_of_closed inline.closed (fun front back whole outside => ?_)
    inline.uncommented apart
  have split := lexemes_append_of_closed outside
    (t := '\x7b' :: back) fun _ _ _ => by simp; decide
  have member : (Lexeme.next '\x7b' back).1 ∈ lexemes s := by
    rw [whole, split, lexemes]
    simp
  exact inline.noPragma _ member rfl

theorem PlainText.inline {s : List Char} (plain : PlainText s) : InlineText s where
  toOnePiece := plain.uncut.onePiece
  nonempty := plain.nonempty
  trimmed := plain.trimmed
  oneLine := plain.oneLine
  uncommented := plain.bare.settled.uncommented
  noPragma := by
    intro l member begins
    have inside : '\x7b' ∈ s := by
      rw [← flatMap_text_lexemes s]
      exact List.mem_flatMap.mpr ⟨l, member, List.mem_of_mem_head? begins⟩
    exact plain.characters _ inside (by decide)

-- A semicolon in a string, and a comment that is none.
example : InlineText "'a; (* b' + \"END_IF\"".toList := by decide +kernel

example : ¬ InlineText "a; b".toList := by decide +kernel

end StructuredText
