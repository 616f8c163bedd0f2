
set_option autoImplicit false

namespace StructuredText

-- Splits the text after an opening mark behind the first `close` that no `$` escapes. Text that is
-- never closed is quoted to its end.
def splitQuoted (close : Char) : List Char → List Char × List Char
  | [] => ([], [])
  | '$' :: c :: rest =>
    let (quoted, after) := splitQuoted close rest
    ('$' :: c :: quoted, after)
  | c :: rest =>
    if c = close then ([c], rest)
    else
      let (quoted, after) := splitQuoted close rest
      (c :: quoted, after)

theorem splitQuoted_append (close : Char) (s : List Char) :
    (splitQuoted close s).1 ++ (splitQuoted close s).2 = s := by
  fun_induction splitQuoted close s <;> simp_all

theorem splitQuoted_length_le (close : Char) (s : List Char) :
    (splitQuoted close s).2.length ≤ s.length := by
  have h := congrArg List.length (splitQuoted_append close s)
  rw [List.length_append] at h
  omega

-- The quoted part ends at a mark, whatever follows it, or it is all there is. Then it goes on with
-- any character but the mark.
theorem splitQuoted_ends {close : Char} (notEscape : close ≠ '$') (s : List Char) :
    (∀ t, splitQuoted close ((splitQuoted close s).1 ++ t) = ((splitQuoted close s).1, t)) ∨
      splitQuoted close s = (s, []) ∧
        ∀ c, c ≠ close → splitQuoted close (s ++ [c]) = (s ++ [c], []) := by
  fun_induction splitQuoted close s with
  | case1 =>
    right
    refine ⟨rfl, fun c other => ?_⟩
    simp [splitQuoted, other]
  | case2 c rest quoted after split ih =>
    rw [split] at ih
    rcases ih with ends | ⟨whole, goesOn⟩
    · left
      intro t
      simp [splitQuoted, ends]
    · right
      simp_all [splitQuoted]
  | case3 rest notEscaped =>
    left
    intro t
    simp [splitQuoted, notEscape]
  | case4 c rest notEscaped other quoted after split ih =>
    rw [split] at ih
    by_cases escape : c = '$'
    · cases rest with
      | nil =>
        right
        subst escape
        simp_all [splitQuoted]
      | cons d rest => exact absurd rfl (notEscaped d rest escape)
    · rcases ih with ends | ⟨whole, goesOn⟩
      · left
        intro t
        simp [splitQuoted, other, escape, ends]
      · right
        simp_all [splitQuoted]

def stringClose? (c : Char) : Option Char :=
  if c = '\x27' ∨ c = '\x22' then some c else none

-- As `stringClose?`, but a brace opens a pragma.
def quoteClose? (c : Char) : Option Char :=
  if c = '\x7b' then some '\x7d' else stringClose? c

theorem quoteClose?_mem {c close : Char} (opens : quoteClose? c = some close) :
    close ∈ ['\x7d', '\x27', '\x22'] := by
  simp only [quoteClose?, stringClose?] at opens
  split at opens
  · cases opens
    decide
  · split at opens
    · cases opens
      simp_all
    · cases opens

theorem quoteClose?_of_string {c close : Char} (opens : stringClose? c = some close) :
    quoteClose? c = some close := by
  rw [quoteClose?, if_neg, opens]
  rintro rfl
  cases opens

theorem quoteClose?_ne_escape {c close : Char} (opens : quoteClose? c = some close) :
    close ≠ '$' := by
  rintro rfl
  exact absurd (quoteClose?_mem opens) (by decide)

end StructuredText
