import StructuredText.Proofs.FragmentCover

set_option autoImplicit false

namespace StructuredText

namespace Lexeme

def isQualifier (l : Lexeme) : Bool :=
  sectionQualifiers.any fun keyword => l = .word keyword.toList

theorem isQualifier_iff {l : Lexeme} :
    l.isQualifier = true ↔ ∃ keyword ∈ sectionQualifiers, l = .word keyword.toList := by
  simp [isQualifier]

end Lexeme

def Cut.Fits (first : Prop) (back : List Lexeme) : Cut → Prop
  | before => first
  | after => back = []
  | around => first ∧ back = []
  | aroundClosing => first ∧
      (back = [] ∨ ∃ spaces, (∀ l ∈ spaces, l.isSpace = true) ∧ back = spaces ++ [.semicolon])
  | aroundSection => first ∧ ∀ l ∈ back, l.isSpace = true ∨ l.isQualifier = true

def Lexeme.Fits (first : Prop) (back : List Lexeme) : Lexeme → Prop
  | semicolon => back = []
  | word w => ∀ cut, Cut.ofWord? w = some cut → cut.Fits first back
  | quoted _ | other _ => True

def AllFlow : List Lexeme → Prop
  | [] => True
  | l :: ls => l.Fits False ls ∧ AllFlow ls

def AllFit : List Lexeme → Prop
  | [] => True
  | l :: ls => l.Fits True ls ∧ AllFlow ls

theorem allFlow_iff {ls : List Lexeme} :
    AllFlow ls ↔ ∀ front l back, ls = front ++ l :: back → l.Fits False back := by
  induction ls with
  | nil => simp [AllFlow]
  | cons m ls ih =>
    rw [AllFlow, ih]
    constructor
    · rintro ⟨here, later⟩ (_ | ⟨_, front⟩) l back split
      · obtain ⟨rfl, rfl⟩ := List.cons.inj split
        exact here
      · exact later front l back (List.cons.inj split).2
    · refine fun all => ⟨all [] m ls rfl, fun front l back split => ?_⟩
      exact all (m :: front) l back (split ▸ rfl)

theorem allFit_iff {ls : List Lexeme} :
    AllFit ls ↔ ∀ front l back, ls = front ++ l :: back → l.Fits (front = []) back := by
  cases ls with
  | nil => simp [AllFit]
  | cons m ls =>
    rw [AllFit, allFlow_iff]
    constructor
    · rintro ⟨here, later⟩ (_ | ⟨_, front⟩) l back split
      · obtain ⟨rfl, rfl⟩ := List.cons.inj split
        simpa using here
      · simpa using later front l back (List.cons.inj split).2
    · refine fun all => ⟨by simpa using all [] m ls rfl, fun front l back split => ?_⟩
      simpa using all (m :: front) l back (split ▸ rfl)

theorem isFirstPiece_iff (ls : List Lexeme) : IsFirstPiece ls ↔ AllFlow ls := by
  have nothing {front : Lexeme} {rest : List Lexeme} :
      [front] = front :: rest ↔ rest = [] := by simp [eq_comm]
  unfold IsFirstPiece
  -- The cases are those of `pieces`: the end, a semicolon, a word by its cut, any other lexeme.
  fun_induction pieces ls with
  | case1 => simp [AllFlow]
  | case2 ls ih =>
    simp only [nothing, AllFlow, Lexeme.Fits]
    constructor
    · rintro ⟨rfl, -⟩
      simp [AllFlow]
    · rintro ⟨rfl, -⟩
      simp [pieces]
  | case3 w ls uncut ih => simp [AllFlow, Lexeme.Fits, uncut, ih]
  | case4 w ls cut ih => simp [AllFlow, Lexeme.Fits, cut, Cut.Fits]
  | case5 w ls cut ih =>
    simp only [nothing, AllFlow, Lexeme.Fits, cut]
    constructor
    · rintro ⟨rfl, -⟩
      simp [AllFlow, Cut.Fits]
    · rintro ⟨fits, -⟩
      obtain rfl : ls = [] := fits .after rfl
      simp [pieces]
  | case6 w ls cut notBefore notAfter isCut attached ih =>
    cases cut with
    | before => exact absurd rfl notBefore
    | after => exact absurd rfl notAfter
    | around | aroundClosing | aroundSection => simp [AllFlow, Lexeme.Fits, isCut, Cut.Fits]
  | case7 l ls notSemicolon notWord ih =>
    have fits : l.Fits False ls := by
      cases l with
      | semicolon => exact absurd rfl notSemicolon
      | word w => exact absurd rfl (notWord w)
      | quoted | other => trivial
    simp [AllFlow, fits, ih]

section Attached

theorem takeSemicolon_all {ls : List Lexeme} :
    (takeSemicolon ls).1 = ls ↔
      ls = [] ∨ ∃ spaces, (∀ l ∈ spaces, l.isSpace = true) ∧ ls = spaces ++ [.semicolon] := by
  constructor
  · intro whole
    unfold takeSemicolon at whole
    split at whole
    · exact .inr ⟨_, List.all_eq_true.mp List.all_takeWhile, whole.symm⟩
    · exact .inl whole.symm
  · rintro (rfl | ⟨spaces, areSpaces, rfl⟩)
    · rfl
    · have dropped : ([.semicolon] : List Lexeme).dropWhile Lexeme.isSpace = [.semicolon] := rfl
      have kept : ([.semicolon] : List Lexeme).takeWhile Lexeme.isSpace = [] := rfl
      rw [takeSemicolon, List.dropWhile_append_of_pos areSpaces,
        List.takeWhile_append_of_pos areSpaces, dropped, kept]
      simp

theorem last_of_cons {l : Lexeme} {ls : List Lexeme}
    (last : ∀ m ∈ (l :: ls).getLast?, m.isSpace = false) :
    ∀ m ∈ ls.getLast?, m.isSpace = false := by
  cases ls with
  | nil => exact nofun
  | cons m ls => rwa [List.getLast?_cons_cons] at last

theorem takeQualifiers_all {spaces ls : List Lexeme}
    (last : ∀ l ∈ ls.getLast?, l.isSpace = false) :
    (takeQualifiers spaces ls).1 = spaces ++ ls ↔
      (ls = [] → spaces = []) ∧ ∀ l ∈ ls, l.isSpace = true ∨ l.isQualifier = true := by
  fun_induction takeQualifiers spaces ls with
  | case1 spaces => simp
  | case2 spaces l ls isSpace ih =>
    have goesOn : ls ≠ [] := by
      rintro rfl
      rw [last l rfl] at isSpace
      cases isSpace
    simpa [goesOn, isSpace] using ih (last_of_cons last)
  | case3 spaces l ls notSpace isQualifier taken rest split ih =>
    have qualifier : l.isQualifier = true := isQualifier
    have others := ih (last_of_cons last)
    rw [split] at others
    simpa [qualifier] using others
  | case4 spaces l ls notSpace notQualifier =>
    have qualifier : ¬l.isQualifier = true := notQualifier
    simp [notSpace, qualifier]

theorem takeAttached_all {cut : Cut} (notBefore : cut ≠ .before) (notAfter : cut ≠ .after)
    {ls : List Lexeme} (last : ∀ l ∈ ls.getLast?, l.isSpace = false) :
    (takeAttached cut ls).1 = ls ↔ cut.Fits True ls := by
  cases cut with
  | before => exact absurd rfl notBefore
  | after => exact absurd rfl notAfter
  | around => simp [takeAttached, Cut.Fits, eq_comm]
  | aroundClosing => simpa [takeAttached, Cut.Fits] using takeSemicolon_all
  | aroundSection => simpa [takeAttached, Cut.Fits] using @takeQualifiers_all [] ls last

theorem allFlow_of_fits {cut : Cut} (notBefore : cut ≠ .before) (notAfter : cut ≠ .after)
    {ls : List Lexeme} (fits : cut.Fits True ls) : AllFlow ls := by
  have spaceFits {l : Lexeme} (isSpace : l.isSpace = true) (back : List Lexeme) :
      l.Fits False back := by
    cases l with
    | other => trivial
    | semicolon | word | quoted => cases isSpace
  cases cut with
  | before => exact absurd rfl notBefore
  | after => exact absurd rfl notAfter
  | around =>
    obtain ⟨-, rfl⟩ := fits
    trivial
  | aroundClosing =>
    obtain ⟨-, rfl | ⟨spaces, areSpaces, rfl⟩⟩ := fits
    · trivial
    · induction spaces with
      | nil => exact ⟨rfl, trivial⟩
      | cons l spaces ih =>
        obtain ⟨isSpace, others⟩ := List.forall_mem_cons.mp areSpaces
        exact ⟨spaceFits isSpace _, ih others⟩
  | aroundSection =>
    have uncut : ∀ keyword ∈ sectionQualifiers, Cut.ofWord? keyword.toList = none := by decide
    obtain ⟨-, parts⟩ := fits
    induction ls with
    | nil => trivial
    | cons l ls ih =>
      obtain ⟨here, others⟩ := List.forall_mem_cons.mp parts
      refine ⟨?_, ih others⟩
      rcases here with isSpace | isQualifier
      · exact spaceFits isSpace ls
      · obtain ⟨keyword, member, rfl⟩ := Lexeme.isQualifier_iff.mp isQualifier
        intro cut isCut
        rw [uncut keyword member] at isCut
        cases isCut

end Attached

theorem isPiece_iff {ls : List Lexeme} (last : ∀ l ∈ ls.getLast?, l.isSpace = false) :
    IsPiece ls ↔ AllFit ls := by
  cases ls with
  | nil => simp [IsPiece, IsFirstPiece, pieces, AllFit]
  | cons l ls =>
    -- Only a word can begin a piece by a cut.
    have ofFirst (begins : (pieces (l :: ls)).1 ≠ []) (alike : l.Fits True ls ↔ l.Fits False ls) :
        IsPiece (l :: ls) ↔ AllFit (l :: ls) := by
      rw [IsPiece, isFirstPiece_iff, AllFit, AllFlow, alike]
      exact or_iff_left fun other => begins other.1
    cases l with
    | semicolon => exact ofFirst (by simp [pieces]) Iff.rfl
    | quoted text => exact ofFirst (by simp [pieces]) Iff.rfl
    | other c => exact ofFirst (by simp [pieces]) Iff.rfl
    | word w =>
      cases isCut : Cut.ofWord? w with
      | none => exact ofFirst (by simp [pieces, isCut]) (by simp [Lexeme.Fits, isCut])
      | some cut =>
        by_cases isAfter : cut = .after
        · subst isAfter
          exact ofFirst (by simp [pieces, isCut]) (by simp [Lexeme.Fits, isCut, Cut.Fits])
        · by_cases isBefore : cut = .before
          · subst isBefore
            have begins : pieces (.word w :: ls) =
                ([], (.word w :: (pieces ls).1) :: (pieces ls).2) := by simp [pieces, isCut]
            have fits : (Lexeme.word w).Fits True ls := by simp [Lexeme.Fits, isCut, Cut.Fits]
            simp [IsPiece, IsFirstPiece, begins, AllFit, fits, ← isFirstPiece_iff]
          · have begins := pieces_around isCut isBefore isAfter ls
            have fits : (Lexeme.word w).Fits True ls ↔ cut.Fits True ls := by
              simp [Lexeme.Fits, isCut]
            have all := takeAttached_all isBefore isAfter (last_of_cons last)
            rw [AllFit, fits]
            constructor
            · intro isPiece
              have taken : (takeAttached cut ls).1 = ls := by
                rw [IsPiece, IsFirstPiece, begins] at isPiece
                rcases isPiece with ⟨impossible, -⟩ | ⟨-, others, split, -⟩
                · cases impossible
                · exact (List.cons.inj (List.cons.inj split).1).2
              exact ⟨all.mp taken, allFlow_of_fits isBefore isAfter (all.mp taken)⟩
            · rintro ⟨fits, -⟩
              have taken := all.mpr fits
              have nothing : (takeAttached cut ls).2 = [] := by
                have parts := takeAttached_append cut ls
                rw [taken] at parts
                simpa using parts
              right
              rw [begins, taken, nothing]
              simp [pieces]

theorem isBlank_of_isSpacing {c : Char} (isSpacing : isSpacing c = true) : isBlank c = true := by
  simp only [StructuredText.isSpacing, Bool.or_eq_true, beq_iff_eq] at isSpacing
  rcases isSpacing with (((rfl | rfl) | rfl) | rfl) | rfl <;> decide

theorem last_lexemes {t : List Char} (trimmed : trim t = t) :
    ∀ l ∈ (lexemes t).getLast?, l.isSpace = false := by
  intro l last
  obtain ⟨before, split⟩ := List.getLast?_eq_some_iff.mp last
  have whole := flatMap_text_lexemes t
  rw [split, List.flatMap_append, List.flatMap_singleton] at whole
  cases l with
  | other c =>
    have visible : isBlank c = false := by
      refine last_trim t c ?_
      rw [trimmed, ← whole]
      simp [Lexeme.text]
    cases isSpacing : isSpacing c with
    | false => exact isSpacing
    | true =>
      rw [isBlank_of_isSpacing isSpacing] at visible
      cases visible
  | quoted | word | semicolon => rfl

theorem fragments_of_single {t : List Char} (single : (fragments t).map Fragment.text = [t]) :
    fragments t = [⟨t, 0, width t⟩] := by
  obtain ⟨fragment, alone, isText⟩ := List.map_eq_singleton_iff.mp single
  have stands : fragment.StandsIn 0 t := standsIn_fragments (alone ▸ List.mem_singleton_self _)
  obtain ⟨text, start, stop⟩ := fragment
  obtain rfl : text = t := isText
  obtain ⟨before, after, whole, starts⟩ := stands.place
  have lengths := congrArg List.length whole
  simp only [List.length_append] at lengths
  obtain rfl : before = [] := List.length_eq_zero_iff.mp (by omega)
  obtain rfl : start = 0 := starts
  have stops : stop = 0 + width text := stands.stop
  rw [alone, stops, Nat.zero_add]

theorem fragments_eq_self_iff (t : List Char) :
    fragments t = [⟨t, 0, width t⟩] ↔
      trim t = t ∧ t ≠ [] ∧ t ≠ [';'] ∧ AllFit (lexemes t) := by
  constructor
  · intro alone
    have among : t ∈ ((pieceTexts t).map trim).filter isFragment := by
      rw [← map_text_fragments, alone]
      exact List.mem_singleton_self t
    obtain ⟨isTrimmed, visible⟩ := List.mem_filter.mp among
    obtain ⟨text, isText, trimmed⟩ := List.mem_map.mp isTrimmed
    obtain ⟨ls, isPart, rfl⟩ := List.mem_map.mp isText
    obtain ⟨⟨before, after, split⟩, isPiece⟩ := isPiece_of_mem isPart
    -- The piece holds all of the text that it is trimmed to.
    have whole : ls.flatMap Lexeme.text = t := by
      obtain ⟨lead, tail, padded, -, -⟩ := trim_append (ls.flatMap Lexeme.text)
      have parts := flatMap_text_lexemes t
      rw [← split, List.flatMap_append, List.flatMap_append] at parts
      have long := congrArg List.length padded
      have short := congrArg List.length parts
      rw [trimmed] at long
      simp only [List.length_append] at long short
      have isInfix : ls.flatMap Lexeme.text <:+: t := ⟨_, _, parts⟩
      exact isInfix.eq_of_length (by omega)
    have isTrim : trim t = t := by rwa [whole] at trimmed
    have alone : lexemes (ls.flatMap Lexeme.text) = ls := lexemes_part ⟨before, after, split⟩
    rw [whole] at alone
    have seen : t ≠ [] ∧ t ≠ [';'] := by simpa [isFragment] using visible
    exact ⟨isTrim, seen.1, seen.2, (isPiece_iff (last_lexemes isTrim)).mp (alone ▸ isPiece)⟩
  · rintro ⟨trimmed, nonempty, notLone, allFit⟩
    have isPiece : IsPiece (lexemes t) := (isPiece_iff (last_lexemes trimmed)).mpr allFit
    have whole := flatMap_text_lexemes t
    have visible : isFragment t = true := by simp [isFragment, nonempty, notLone]
    have single := @filter_isFragment_of_isPiece (lexemes t) (by rw [whole]) isPiece
      (by rw [whole, trimmed]; exact visible)
    rw [whole, trimmed, ← map_text_fragments] at single
    exact fragments_of_single single

end StructuredText
