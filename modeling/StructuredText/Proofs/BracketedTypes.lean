import StructuredText.Proofs.SingleParameters

set_option autoImplicit false

namespace StructuredText

open Reader

def bracketStep (expected : List Char) (c : Char) : Option (List Char) :=
  if c = '(' then some (')' :: expected)
  else if c = '[' then some (']' :: expected)
  else if c = ')' ∨ c = ']' then if expected.head? = some c then some expected.tail else none
  else some expected

def bracketsAfter (expected s : List Char) : Option (List Char) :=
  s.foldlM bracketStep expected

def Bracketed (s : List Char) : Prop :=
  bracketsAfter [] s = some []

instance (s : List Char) : Decidable (Bracketed s) :=
  inferInstanceAs (Decidable (bracketsAfter [] s = some []))

section Bracketed

open Parameter

variable {expected rest s t : List Char} {c : Char}

theorem bracketStep_eq_some (step : bracketStep expected c = some rest) :
    (∃ close, rest = close :: expected ∧ nesting c = 1) ∨
      (expected = c :: rest ∧ nesting c = -1) ∨ (rest = expected ∧ nesting c = 0) := by
  rw [bracketStep] at step
  split at step
  · rename_i opens
    exact .inl ⟨')', (Option.some.inj step).symm, by rw [opens]; decide⟩
  · split at step
    · rename_i opens
      exact .inl ⟨']', (Option.some.inj step).symm, by rw [opens]; decide⟩
    · rename_i notRound notSquare
      split at step
      · rename_i closes
        simp only [Option.ite_none_right_eq_some, Option.some.injEq] at step
        obtain ⟨nearest, rfl⟩ := step
        obtain ⟨others, shape⟩ := List.head?_eq_some_iff.mp nearest
        refine .inr (.inl ⟨by rw [shape, List.tail_cons], ?_⟩)
        simp [nesting, notRound, notSquare, closes]
      · rename_i notClosing
        exact .inr (.inr ⟨(Option.some.inj step).symm,
          by simp [nesting, notRound, notSquare, notClosing]⟩)

theorem bracketsAfter_cons (expected : List Char) (c : Char) (s : List Char) :
    bracketsAfter expected (c :: s) = (bracketStep expected c).bind (bracketsAfter · s) := by
  rw [bracketsAfter, List.foldlM_cons]
  rfl

theorem bracketsAfter_append (expected s t : List Char) :
    bracketsAfter expected (s ++ t) = (bracketsAfter expected s).bind (bracketsAfter · t) := by
  rw [bracketsAfter, List.foldlM_append]
  rfl

theorem length_bracketsAfter (after : bracketsAfter expected s = some rest) :
    (rest.length : Int) = expected.length + depth s := by
  induction s generalizing expected with
  | nil =>
    obtain rfl : expected = rest := Option.some.inj after
    simp [depth]
  | cons c s ih =>
    rw [bracketsAfter_cons, Option.bind_eq_some_iff] at after
    obtain ⟨mid, step, later⟩ := after
    rw [ih later, depth_cons]
    rcases bracketStep_eq_some step with ⟨close, rfl, opens⟩ | ⟨rfl, closes⟩ | ⟨rfl, other⟩
    · rw [opens, List.length_cons]
      omega
    · rw [closes, List.length_cons]
      omega
    · rw [other]
      omega

theorem depth_of_bracketed (closed : Bracketed s) : depth s = 0 := by
  have length := length_bracketsAfter closed
  simpa using length.symm

theorem stays_open {close : Char} {base : List Char} (absent : close ∉ s) {top : List Char}
    (after : bracketsAfter (top ++ close :: base) s = some rest) :
    ∃ top, rest = top ++ close :: base := by
  induction s generalizing top with
  | nil => exact ⟨top, (Option.some.inj after).symm⟩
  | cons c s ih =>
    obtain ⟨notHere, notLater⟩ := not_or.mp (List.mem_cons.not.mp absent)
    rw [bracketsAfter_cons, Option.bind_eq_some_iff] at after
    obtain ⟨mid, step, later⟩ := after
    rcases bracketStep_eq_some step with ⟨inner, rfl, -⟩ | ⟨closed, -⟩ | ⟨rfl, -⟩
    · exact ih notLater (by rwa [List.cons_append])
    · cases top with
      | nil => exact absurd (List.cons.inj closed).1 notHere
      | cons d top =>
        obtain ⟨-, rfl⟩ := List.cons.inj closed
        exact ih notLater later
    · exact ih notLater later

end Bracketed

def Enclosed (before : List Char) : Prop :=
  ∃ front opening closing inner, before = front ++ opening :: inner ∧
    (opening = '(' ∧ closing = ')' ∨ opening = '[' ∧ closing = ']') ∧ closing ∉ inner

def EnclosesCommas (s : List Char) : Prop :=
  ∀ before after, s = before ++ ',' :: after → Enclosed before

section Enclosed

open Parameter

variable {s t before after : List Char}

theorem depth_pos_of_enclosed (closed : Bracketed (before ++ after))
    (enclosed : Enclosed before) : 0 < depth before := by
  obtain ⟨front, opening, closing, inner, rfl, pair, absent⟩ := enclosed
  rw [Bracketed, bracketsAfter_append, Option.bind_eq_some_iff] at closed
  obtain ⟨rest, isRest, -⟩ := closed
  have isOpen := isRest
  rw [bracketsAfter_append, Option.bind_eq_some_iff] at isOpen
  obtain ⟨base, -, behind⟩ := isOpen
  have opens : bracketStep base opening = some (closing :: base) := by
    rcases pair with ⟨rfl, rfl⟩ | ⟨rfl, rfl⟩ <;> rfl
  rw [bracketsAfter_cons, opens, Option.bind_some] at behind
  obtain ⟨top, rfl⟩ := stays_open absent (by rwa [List.nil_append])
  have length := length_bracketsAfter isRest
  simp only [List.length_append, List.length_cons, List.length_nil] at length
  omega

theorem commasInside_of_bracketed (closed : Bracketed s) (encloses : EnclosesCommas s) :
    CommasInside 0 s := by
  intro before after split
  rw [split] at closed
  have inside := depth_pos_of_enclosed closed (encloses before after split)
  omega

theorem EnclosesCommas.of_absent (absent : ',' ∉ s) : EnclosesCommas s := by
  rintro before after rfl
  exact absurd (by simp) absent

theorem EnclosesCommas.append (first : EnclosesCommas s) (second : EnclosesCommas t) :
    EnclosesCommas (s ++ t) := by
  intro before after split
  rcases List.append_eq_append_iff.mp split with ⟨mid, rfl, inSecond⟩ | ⟨mid, inFirst, isAfter⟩
  · obtain ⟨front, opening, closing, inner, rfl, pair, absent⟩ := second mid after inSecond
    exact ⟨s ++ front, opening, closing, inner, by simp, pair, absent⟩
  · cases mid with
    | nil =>
      obtain ⟨front, opening, closing, inner, empty, -⟩ := second [] after isAfter.symm
      simp at empty
    | cons c mid =>
      obtain ⟨rfl, -⟩ := List.cons.inj isAfter
      exact first before mid inFirst

def Reader.TakesEnclosed (read : Reader) : Prop :=
  ∀ s rest, read s = some rest → ∃ part, s = part ++ rest ∧ EnclosesCommas part

namespace Reader.TakesEnclosed

variable {read next : Reader}

theorem bind (first : TakesEnclosed read) (second : TakesEnclosed next) :
    TakesEnclosed fun s => (read s).bind next := by
  intro s rest reads
  obtain ⟨mid, isMid, isRest⟩ := Option.bind_eq_some_iff.mp reads
  obtain ⟨front, rfl, inFront⟩ := first s mid isMid
  obtain ⟨part, rfl, inPart⟩ := second mid rest isRest
  exact ⟨front ++ part, by rw [List.append_assoc], inFront.append inPart⟩

theorem or (first : TakesEnclosed read) (second : TakesEnclosed next) :
    TakesEnclosed fun s => (read s).or (next s) := by
  intro s rest reads
  rcases Option.or_eq_some_iff.mp reads with here | ⟨-, there⟩
  · exact first s rest here
  · exact second s rest there

end Reader.TakesEnclosed

theorem takesEnclosed_dropWhile {p : Char → Bool} (other : p ',' = false) :
    TakesEnclosed fun s => some (s.dropWhile p) := by
  rintro s rest ⟨⟩
  refine ⟨s.takeWhile p, List.takeWhile_append_dropWhile.symm, .of_absent fun member => ?_⟩
  have holds := List.all_eq_true.mp List.all_takeWhile ',' member
  rw [other] at holds
  cases holds

theorem takesEnclosed_literal (keyword : String) (absent : ',' ∉ keyword.toList) :
    TakesEnclosed (literal keyword) :=
  fun _ _ reads => ⟨keyword.toList, literal_eq_some reads, .of_absent absent⟩

theorem takesEnclosed_blanks : TakesEnclosed blanks := by
  intro s rest reads
  have skipped : some (s.dropWhile isBlank) = some rest :=
    congrArg some (blanks_eq_trimStart reads).symm
  exact takesEnclosed_dropWhile (by decide) s rest skipped

theorem takesEnclosed_bracketed {opening closing : Char}
    (pair : opening = '(' ∧ closing = ')' ∨ opening = '[' ∧ closing = ']') :
    TakesEnclosed (bracketed opening closing) := by
  intro s rest reads
  cases s with
  | nil => cases reads
  | cons c s =>
    simp only [bracketed, Option.ite_none_right_eq_some, Option.map_eq_some_iff] at reads
    obtain ⟨rfl, ⟨inner, _⟩, split, rfl⟩ := reads
    refine ⟨c :: (inner ++ [closing]), by simp [splitAtChar_eq split], ?_⟩
    intro before after whole
    cases before with
    | nil =>
      obtain ⟨rfl, -⟩ := List.cons.inj whole
      simp at pair
    | cons d before =>
      obtain ⟨rfl, behind⟩ := List.cons.inj whole
      have absent := splitAtChar_absent split
      rcases List.append_eq_append_iff.mp behind with ⟨mid, -, ending⟩ | ⟨mid, isInner, -⟩
      · -- The comma would be the closing bracket.
        cases mid with
        | nil =>
          obtain ⟨rfl, -⟩ := List.cons.inj ending
          simp at pair
        | cons e mid => simp at ending
      · rw [isInner] at absent
        exact ⟨[], c, closing, before, rfl, pair, fun member => absent (by simp [member])⟩

end Enclosed

namespace TypeExpr

variable {s : List Char}

theorem takesEnclosed_wrapper : TakesEnclosed wrapper := by
  have skip : TakesEnclosed fun s => some (trimStart s) := takesEnclosed_dropWhile (by decide)
  have array : TakesEnclosed wrapper.array :=
    (takesEnclosed_literal "ARRAY" (by decide)).bind <|
      (skip.bind (takesEnclosed_bracketed (.inr ⟨rfl, rfl⟩))).bind <|
        (skip.bind (takesEnclosed_literal "OF" (by decide))).bind takesEnclosed_blanks
  have wordTo (keyword : String) (absent : ',' ∉ keyword.toList) :
      TakesEnclosed (wrapper.wordTo keyword) :=
    (takesEnclosed_literal keyword absent).bind <|
      takesEnclosed_blanks.bind ((takesEnclosed_literal "TO" (by decide)).bind takesEnclosed_blanks)
  exact array.or ((wordTo "POINTER" (by decide)).or (wordTo "REFERENCE" (by decide)))

theorem takesEnclosed_base : TakesEnclosed base := by
  have skip : TakesEnclosed fun s => some (trimStart s) := takesEnclosed_dropWhile (by decide)
  have index : TakesEnclosed fun s =>
      (bracketed '[' ']' (trimStart s)).or (bracketed '(' ')' (trimStart s)) :=
    (skip.bind (takesEnclosed_bracketed (.inr ⟨rfl, rfl⟩))).or
      (skip.bind (takesEnclosed_bracketed (.inl ⟨rfl, rfl⟩)))
  intro s rest reads
  obtain ⟨front, behind, rfl, -, -, inName, -, ends⟩ := base_eq_some reads
  have inFront : EnclosesCommas front := by
    refine .of_absent fun member => ?_
    have isType := inName ',' member
    revert isType
    decide
  cases read : (bracketed '[' ']' (trimStart behind)).or
      (bracketed '(' ')' (trimStart behind)) with
  | none =>
    obtain rfl : behind = rest := by rwa [read] at ends
    exact ⟨front, rfl, inFront⟩
  | some after =>
    obtain rfl : after = rest := by rwa [read] at ends
    obtain ⟨part, rfl, inPart⟩ := index _ _ read
    exact ⟨front ++ part, by rw [List.append_assoc], inFront.append inPart⟩

theorem takesEnclosed_reader : TakesEnclosed reader := by
  intro s rest reads
  fun_induction reader s with
  | case1 s more wraps ih =>
    obtain ⟨front, rfl, inFront⟩ := takesEnclosed_wrapper _ _ wraps
    obtain ⟨part, rfl, inPart⟩ := ih reads
    exact ⟨front ++ part, by rw [List.append_assoc], inFront.append inPart⟩
  | case2 s noWrapper => exact takesEnclosed_base s rest reads

theorem commasInside_of_reader (reads : reader s = some []) (closed : Bracketed s) :
    Parameter.CommasInside 0 s := by
  obtain ⟨part, whole, encloses⟩ := takesEnclosed_reader s [] reads
  rw [List.append_nil] at whole
  rw [whole] at closed ⊢
  exact commasInside_of_bracketed closed encloses

end TypeExpr

end StructuredText
