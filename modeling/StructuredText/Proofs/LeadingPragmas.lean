import StructuredText.Proofs.AtomicFragments
import StructuredText.Proofs.SingleParameters
import StructuredText.Proofs.SquashedTypes

set_option autoImplicit false

namespace StructuredText

def EndsPragma (s front : List Char) : Prop :=
  ∃ back, s = front ++ '\x7d' :: back ∧ withoutPragmas s <:+ back

def EndsUnescaped (s : List Char) : Prop :=
  ∀ front, EndsPragma s front → Scan.outside.after front ≠ .escaped '\x7d'

def HoldsOne (s : List Char) : Prop :=
  fragments s = [] ∨ fragments s = [⟨s, 0, width s⟩]

section Suffix

variable {p q : Prop} {l : Lexeme} {back : List Lexeme}

theorem Lexeme.Fits.imp (fits : l.Fits p back) (first : p → q) : l.Fits q back := by
  cases l with
  | semicolon => exact fits
  | quoted | other => trivial
  | word w =>
    intro cut isCut
    have falls := fits cut isCut
    cases cut with
    | before => exact first falls
    | after => exact falls
    | around | aroundClosing | aroundSection => exact ⟨first falls.1, falls.2⟩

theorem AllFit.right {before after : List Lexeme} (fit : AllFit (before ++ after)) :
    AllFit after := by
  rw [allFit_iff] at fit ⊢
  rintro front l back rfl
  have fits : l.Fits (before ++ front = []) back := fit (before ++ front) l back (by simp)
  exact fits.imp fun nothing => (List.append_eq_nil_iff.mp nothing).2

end Suffix

section Scan

theorem Scan.stays_inside {close : Char} {scan : Scan}
    (isInside : scan = inside close ∨ scan = escaped close) {s : List Char} (absent : close ∉ s) :
    scan.after s = inside close ∨ scan.after s = escaped close := by
  induction s generalizing scan with
  | nil => exact isInside
  | cons c s ih =>
    obtain ⟨notHere, notLater⟩ := not_or.mp (List.mem_cons.not.mp absent)
    rw [after_cons]
    refine ih ?_ notLater
    rcases isInside with rfl | rfl
    · by_cases escape : c = '$'
      · exact .inr (if_pos escape)
      · exact .inl (by simp [next, escape, Ne.symm notHere])
    · exact .inl rfl

theorem Scan.not_escaped_of_absent {scan : Scan} (begun : ∀ close, scan ≠ escaped close)
    {s : List Char} (absent : '$' ∉ s) (close : Char) : scan.after s ≠ escaped close := by
  induction s generalizing scan with
  | nil => exact begun close
  | cons c s ih =>
    obtain ⟨notHere, notLater⟩ := not_or.mp (List.mem_cons.not.mp absent)
    rw [after_cons]
    refine ih (fun other => ?_) notLater
    cases scan with
    | outside => rw [next_outside]; cases quoteClose? c <;> simp
    | inside mark => simp only [next, Ne.symm notHere, if_false]; split <;> simp
    | escaped mark => exact absurd rfl (begun mark)

theorem EndsUnescaped.of_absent {s : List Char} (absent : '$' ∉ s) : EndsUnescaped s := by
  rintro front ⟨back, rfl, -⟩
  have before : '$' ∉ front := fun member => absent (List.mem_append_left _ member)
  exact Scan.not_escaped_of_absent (fun close isEscaped => by cases isEscaped) before _

end Scan

section Pragma

variable {rest before after : List Char}

theorem withoutPragmas_of_closed (split : splitAtChar '\x7d' rest = some (before, after)) :
    withoutPragmas ('\x7b' :: rest) = withoutPragmas (trimStart after) := by
  rw [withoutPragmas, split]

theorem outside_of_pragma (split : splitAtChar '\x7d' rest = some (before, after))
    (unescaped : Scan.outside.after ('\x7b' :: before) ≠ .escaped '\x7d') :
    Scan.outside.after ('\x7b' :: before ++ ['\x7d']) = .outside := by
  have begun : Scan.outside.after ('\x7b' :: before) = .inside '\x7d' :=
    (Scan.stays_inside (.inl rfl) (splitAtChar_absent split)).resolve_right unescaped
  rw [Scan.after_append, begun]
  rfl

theorem eq_firstPragma_append (split : splitAtChar '\x7d' rest = some (before, after)) :
    '\x7b' :: rest =
      '\x7b' :: before ++ '\x7d' :: after.takeWhile isBlank ++ trimStart after := by
  rw [splitAtChar_eq split]
  simp [trimStart]

theorem outside_of_firstPragma (split : splitAtChar '\x7d' rest = some (before, after))
    (unescaped : Scan.outside.after ('\x7b' :: before) ≠ .escaped '\x7d') :
    Scan.outside.after ('\x7b' :: before ++ '\x7d' :: after.takeWhile isBlank) = .outside := by
  have blanks : ∀ c ∈ after.takeWhile isBlank, isBlank c = true :=
    List.all_eq_true.mp List.all_takeWhile
  rw [List.append_cons, Scan.after_append, outside_of_pragma split unescaped,
    Scan.after_unquoted fun c member => quoteClose?_of_blank (blanks c member)]

theorem EndsPragma.first (split : splitAtChar '\x7d' rest = some (before, after)) :
    EndsPragma ('\x7b' :: rest) ('\x7b' :: before) := by
  refine ⟨after, by rw [splitAtChar_eq split]; rfl, ?_⟩
  rw [withoutPragmas_of_closed split]
  exact (withoutPragmas_suffix _).1.trans (trimStart_suffix after)

theorem EndsPragma.behind (split : splitAtChar '\x7d' rest = some (before, after))
    {front : List Char} (ends : EndsPragma (trimStart after) front) :
    EndsPragma ('\x7b' :: rest)
      ('\x7b' :: before ++ '\x7d' :: after.takeWhile isBlank ++ front) := by
  obtain ⟨back, whole, kept⟩ := ends
  refine ⟨back, ?_, withoutPragmas_of_closed split ▸ kept⟩
  rw [eq_firstPragma_append split, whole]
  simp

theorem EndsPragma.cases (split : splitAtChar '\x7d' rest = some (before, after))
    {front : List Char} (ends : EndsPragma ('\x7b' :: rest) front) :
    front = '\x7b' :: before ∨
      ∃ later, front = '\x7b' :: before ++ '\x7d' :: after.takeWhile isBlank ++ later ∧
        EndsPragma (trimStart after) later := by
  obtain ⟨back, whole, kept⟩ := ends
  rw [withoutPragmas_of_closed split] at kept
  have opening : '\x7d' ∉ '\x7b' :: before := by simpa using splitAtChar_absent split
  have twice : '\x7b' :: before ++ '\x7d' :: after = front ++ '\x7d' :: back := by
    rw [← whole, splitAtChar_eq split]
    rfl
  rcases cut_at_first opening twice with first | ⟨between, rfl, behind⟩
  · exact .inl first
  have noBrace : '\x7d' ∉ after.takeWhile isBlank := fun member =>
    absurd (List.all_eq_true.mp List.all_takeWhile _ member) (by decide)
  have trimmed : after.takeWhile isBlank ++ trimStart after = between ++ '\x7d' :: back :=
    (List.takeWhile_append_dropWhile).trans behind
  obtain ⟨later, rfl, isRest⟩ := cut_behind noBrace trimmed
  exact .inr ⟨later, by simp, back, isRest, kept⟩

theorem EndsUnescaped.behind (split : splitAtChar '\x7d' rest = some (before, after))
    (unescaped : EndsUnescaped ('\x7b' :: rest)) : EndsUnescaped (trimStart after) := by
  intro front ends
  have isOutside := outside_of_firstPragma split (unescaped _ (.first split))
  have whole := unescaped _ (ends.behind split)
  rwa [Scan.after_append, isOutside] at whole

end Pragma

section Agreement

variable {s : List Char}

theorem EndsUnescaped.closes (unescaped : EndsUnescaped s) {front : List Char}
    (ends : EndsPragma s front) : Scan.outside.after (front ++ ['\x7d']) = .outside := by
  fun_induction withoutPragmas s generalizing front with
  | case1 rest before after split ih =>
    rcases ends.cases split with rfl | ⟨later, rfl, endsLater⟩
    · exact outside_of_pragma split (unescaped _ ends)
    · rw [List.append_assoc, Scan.after_append,
        outside_of_firstPragma split (unescaped _ (.first split)),
        ih (unescaped.behind split) endsLater]
  | case2 rest unclosed =>
    obtain ⟨back, whole, -⟩ := ends
    have absent := Parameter.splitAtChar_eq_none_iff.mp unclosed
    have member : '\x7d' ∈ '\x7b' :: rest := whole ▸ by simp
    exact absurd (by simpa using member) absent
  | case3 s noPragma =>
    obtain ⟨back, whole, kept⟩ := ends
    rw [withoutPragmas] at kept
    · have shorter := kept.length_le
      rw [whole, List.length_append, List.length_cons] at shorter
      omega
    · exact noPragma

theorem withoutPragmas_cases (s : List Char) : withoutPragmas s = [] ∨ withoutPragmas s = s ∨
    ∃ front blanks, s = front ++ '\x7d' :: blanks ++ withoutPragmas s ∧
      ∀ c ∈ blanks, isBlank c = true := by
  fun_induction withoutPragmas s with
  | case1 rest before after split ih =>
    rcases ih with nothing | isRest | ⟨front, blanks, isRest, areBlank⟩
    · exact .inl nothing
    · refine .inr (.inr ⟨'\x7b' :: before, after.takeWhile isBlank, ?_, ?_⟩)
      · rw [isRest]
        exact eq_firstPragma_append split
      · exact List.all_eq_true.mp List.all_takeWhile
    · refine .inr (.inr ⟨'\x7b' :: before ++ '\x7d' :: after.takeWhile isBlank ++ front, blanks, ?_,
        areBlank⟩)
      nth_rewrite 1 [eq_firstPragma_append split, isRest]
      simp
  | case2 rest unclosed => exact .inl rfl
  | case3 s noPragma => exact .inr (.inl rfl)

theorem EndsUnescaped.exists_lexemes (unescaped : EndsUnescaped s)
    (something : withoutPragmas s ≠ []) :
    ∃ pragmas, lexemes s = pragmas ++ lexemes (withoutPragmas s) := by
  rcases withoutPragmas_cases s with nothing | same | ⟨front, blanks, whole, areBlank⟩
  · exact absurd nothing something
  · exact ⟨[], by rw [same, List.nil_append]⟩
  · have closes : Scan.outside.after (front ++ ['\x7d']) = .outside :=
      unescaped.closes ⟨blanks ++ withoutPragmas s, by simpa using whole, List.suffix_append _ _⟩
    have isOutside : Scan.outside.after (front ++ '\x7d' :: blanks) = .outside := by
      rw [List.append_cons, Scan.after_append, closes,
        Scan.after_unquoted fun c member => quoteClose?_of_blank (areBlank c member)]
    have noName : ∀ e ∈ (front ++ '\x7d' :: blanks).getLast?, isNameChar e = false := by
      intro e last
      have member : e ∈ ('\x7d' :: blanks).getLast? := by simpa [List.getLast?_append] using last
      rcases List.mem_cons.mp (List.mem_of_mem_getLast? member) with rfl | isBlank
      · rfl
      · exact notName_of_blank (areBlank e isBlank)
    refine ⟨lexemes (front ++ '\x7d' :: blanks), ?_⟩
    nth_rewrite 1 [whole]
    refine lexemes_append_of_closed isOutside fun e last isName => ?_
    rw [noName e last] at isName
    cases isName

theorem trim_withoutPragmas (trimmed : trim s = s) :
    trim (withoutPragmas s) = withoutPragmas s := by
  obtain ⟨suffix, first⟩ := withoutPragmas_suffix s
  have ends := last_trim s
  rw [trimmed] at ends
  exact trim_of_ends (first (head_of_trimStart (trimStart_of_trim trimmed)))
    fun c last => ends c (last_of_suffix suffix c last)

theorem holdsOne_iff (trimmed : trim s = s) :
    HoldsOne s ↔ IsAtomic s ∨ ∀ c ∈ s, isBlank c = true ∨ c = ';' := by
  constructor
  · rintro (nothing | alone)
    · exact .inr (fragments_eq_nil_iff.mp nothing)
    · exact .inl (allFit_lexemes_iff.mp ((fragments_eq_self_iff s).mp alone).2.2.2)
  · rintro (atomic | semicolons)
    · by_cases only : s = [] ∨ s = [';']
      · left
        rcases only with rfl | rfl <;> decide +kernel
      · right
        obtain ⟨nonempty, more⟩ := not_or.mp only
        exact (fragments_eq_self_iff s).mpr
          ⟨trimmed, nonempty, more, allFit_lexemes_iff.mpr atomic⟩
    · exact .inl (fragments_eq_nil_iff.mpr semicolons)

theorem EndsUnescaped.isAtomic_rest (unescaped : EndsUnescaped s) (atomic : IsAtomic s) :
    IsAtomic (withoutPragmas s) := by
  rw [← allFit_lexemes_iff] at atomic ⊢
  by_cases nothing : withoutPragmas s = []
  · simp [nothing, lexemes, AllFit]
  · obtain ⟨pragmas, split⟩ := unescaped.exists_lexemes nothing
    rw [split] at atomic
    exact atomic.right

end Agreement

/-- The cutting of a line and the dropping of pragmas agree on where the pragmas in front of a
fragment end exactly if no dollar sign takes a brace with it, and then what is left of the
fragment is cut no further: it is nothing, or a single fragment. Otherwise it is so exactly if
what is left holds only semicolons, or no place where a line is cut. -/
theorem fragments_withoutPragmas {code : List Char} {fragment : Fragment}
    (member : fragment ∈ fragments code) :
    (EndsUnescaped fragment.text ↔ ∀ front, EndsPragma fragment.text front →
        Scan.outside.after (front ++ ['\x7d']) = .outside) ∧
      (EndsUnescaped fragment.text → HoldsOne (withoutPragmas fragment.text)) ∧
      (HoldsOne (withoutPragmas fragment.text) ↔ IsAtomic (withoutPragmas fragment.text) ∨
        ∀ c ∈ withoutPragmas fragment.text, isBlank c = true ∨ c = ';') := by
  have alone := fragments_of_single (map_text_fragments_text member)
  obtain ⟨trimmed, -⟩ := (fragments_eq_self_iff _).mp alone
  have whenOne := holdsOne_iff (trim_withoutPragmas trimmed)
  refine ⟨⟨fun unescaped front ends => unescaped.closes ends, fun agree front ends isEscaped => ?_⟩,
    fun unescaped => whenOne.mpr (.inl (unescaped.isAtomic_rest (isAtomic_of_mem member))), whenOne⟩
  have closes := agree front ends
  rw [Scan.after_append, isEscaped] at closes
  cases closes

theorem fragments_withoutPragmas_two :
    let text := "\x7ba\x7d \x7bb\x7d x := 1;".toList
    ⟨text, 0, 15⟩ ∈ fragments (text ++ " y := 2;".toList) ∧ EndsUnescaped text ∧
      HoldsOne (withoutPragmas text) := by
  intro text
  have member : ⟨text, 0, 15⟩ ∈ fragments (text ++ " y := 2;".toList) := by decide +kernel
  have unescaped : EndsUnescaped text := .of_absent (by decide)
  exact ⟨member, unescaped, (fragments_withoutPragmas member).2.1 unescaped⟩

theorem fragments_withoutPragmas_escaped :
    let code := "\x7ba$\x7d x := 1; b\x7d y := 2;".toList
    fragments code = [⟨code, 0, 23⟩] ∧
      fragments (withoutPragmas code) =
        [⟨"x := 1;".toList, 0, 7⟩, ⟨"b\x7d y := 2;".toList, 8, 18⟩] := by
  decide +kernel

end StructuredText
