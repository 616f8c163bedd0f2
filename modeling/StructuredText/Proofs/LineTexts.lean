import StructuredText.Proofs.CommentFree
import StructuredText.Proofs.FragmentTexts
import StructuredText.Proofs.RoundTrip

set_option autoImplicit false

namespace StructuredText

def IsClosed (raw : List Char) : Prop :=
  (segments raw).getLast?.bind Segment.stillOpen? = none

instance (raw : List Char) : Decidable (IsClosed raw) :=
  inferInstanceAs (Decidable ((segments raw).getLast?.bind Segment.stillOpen? = none))

def lineTexts (raw : List Char) : List (List Char) :=
  (fragments (blankedCode raw)).map fun fragment => withoutPragmas fragment.text

theorem lineTexts_eq (raw : List Char) :
    lineTexts raw = ((fragments (blankedCode raw)).map Fragment.text).map withoutPragmas := by
  rw [List.map_map]
  rfl

theorem map_text_lineSteps (line : SourceLine) (parts : List Fragment) :
    (lineSteps line parts).map Step.text =
      parts.map fun fragment => withoutPragmas fragment.text := by
  induction parts with
  | nil => rfl
  | cons fragment parts ih => simp [lineSteps, Step.text, ih]

theorem fragments_of_blank {code : List Char} (blank : trim code = []) : fragments code = [] := by
  have nothing : fragments [] = [] := by decide +kernel
  have texts := map_text_fragments_trim code
  rw [blank, nothing] at texts
  simpa using texts.symm

theorem strip_of_closed {raw : List Char} (closed : IsClosed raw) (number : Nat) :
    (strip none raw number).1.code = blankedCode raw ∧ (strip none raw number).2 = none := by
  rw [IsClosed] at closed
  simp [strip, strip.finish, StrippedLine.ofSegments, closed, blankedCode]

theorem Progress.line_of_closed {progress : Progress} {raw : List Char}
    (outside : progress.comment = none) (closed : IsClosed raw) :
    ∃ steps : List Step, steps.map Step.text = lineTexts raw ∧
      progress.line raw = ⟨progress.count + 1, none, progress.state.run steps⟩ := by
  obtain ⟨code, comment⟩ := strip_of_closed closed (progress.count + 1)
  let line : SourceLine := ⟨raw, (strip none raw (progress.count + 1)).1, progress.count + 1⟩
  refine ⟨line.steps, ?_, ?_⟩
  · rw [SourceLine.steps, map_text_lineSteps, code]
    rfl
  · simp only [Progress.line, outside, comment, Progress.mk.injEq, true_and]
    split
    · rename_i empty
      have nothing : fragments line.stripped.code = [] :=
        fragments_of_blank (List.isEmpty_iff.mp empty)
      rw [SourceLine.steps, nothing]
      rfl
    · exact State.fragments_eq_run ..

structure ReadsAs (raw text : List Char) : Prop where
  closed : IsClosed raw
  single : lineTexts raw = [text]

theorem Progress.line_of_readsAs {progress : Progress} {raw text : List Char}
    (reads : ReadsAs raw text) (outside : progress.comment = none) :
    ∃ step : Step, step.text = text ∧
      progress.line raw = ⟨progress.count + 1, none, progress.state.step step⟩ := by
  obtain ⟨steps, texts, result⟩ := line_of_closed outside reads.closed
  rw [reads.single] at texts
  obtain ⟨step, rfl, isText⟩ := List.map_eq_singleton_iff.mp texts
  exact ⟨step, isText, result⟩

section Settled

variable {s : List Char} (settled : Settled s)

include settled

theorem Settled.isClosed : IsClosed s := by
  have nothing := congrArg Prod.snd (settled.uncommented.strip 0)
  simpa [strip, strip.finish, IsClosed] using nothing

theorem Settled.blankedCode : blankedCode s = s :=
  congrArg (fun stripped => stripped.1.code) (settled.uncommented.strip 0)

theorem Settled.readsAs (noPragma : withoutPragmas s = s)
    (single : (fragments s).map Fragment.text = [s]) : ReadsAs s s where
  closed := settled.isClosed
  single := by simp [lineTexts_eq, settled.blankedCode, single, noPragma]

theorem blankedCode_append {t : List Char}
    (apart : ∀ c ∈ s.getLast?, ∀ d ∈ t.head?, Apart c d) :
    blankedCode (s ++ t) = s ++ blankedCode t := by
  have kept := settled.blankedCode
  rw [blankedCode] at kept
  rw [blankedCode, settled.goesOn t apart, List.flatMap_append, kept, blankedCode]

theorem isClosed_append {t : List Char} (apart : ∀ c ∈ s.getLast?, ∀ d ∈ t.head?, Apart c d)
    (closed : IsClosed t) : IsClosed (s ++ t) := by
  rw [IsClosed, settled.goesOn t apart, List.getLast?_append]
  cases last : (segments t).getLast? with
  | none =>
    rw [Option.none_or]
    exact settled.isClosed
  | some part =>
    rw [IsClosed, last] at closed
    exact closed

end Settled

theorem Bare.readsAs {s : List Char} (bare : Bare s)
    (single : (fragments s).map Fragment.text = [s]) : ReadsAs s s :=
  bare.settled.readsAs bare.withoutPragmas single

section Indent

variable {pad : List Char} (indent : ∀ c ∈ pad, c = ' ' ∨ c = '\t')

include indent

theorem isClosed_indent {raw : List Char} (closed : IsClosed raw) : IsClosed (pad ++ raw) :=
  isClosed_append (settled_of_indent indent) (apart_of_indent indent raw) closed

theorem lineTexts_indent (raw : List Char) : lineTexts (pad ++ raw) = lineTexts raw := by
  rw [lineTexts_eq, lineTexts_eq,
    blankedCode_append (settled_of_indent indent) (apart_of_indent indent raw),
    map_text_fragments_blank_append (blank_of_indent indent)]

theorem ReadsAs.indented {raw text : List Char} (reads : ReadsAs raw text) :
    ReadsAs (pad ++ raw) text :=
  ⟨isClosed_indent indent reads.closed, (lineTexts_indent indent raw).trans reads.single⟩

end Indent

end StructuredText
