import StructuredText.Document.State
import StructuredText.Proofs.SingleParameters

set_option autoImplicit false

namespace StructuredText

open Reader

namespace Declaration

def behindType? (s : List Char) : Option (List Char) := do
  let (_, rest) ← splitAtChar ':' s
  let (_, rest) ← TypeExpr.read? (trimStart rest)
  some (trimStart rest)

inductive ValueBehind : List Char → Option String → Prop where
  | absent : ValueBehind [';'] none
  | given {body : List Char} (something : trim body ≠ []) (oneLine : '\n' ∉ trim body) :
      ValueBehind (":=".toList ++ (body ++ [';'])) (some (String.ofList (trim body)))
  -- One of the blanks is taken for the value, and then nothing is left of it.
  | blank {body : List Char} (nothing : trim body = []) (hidden : ∃ c ∈ body, c ≠ '\n') :
      ValueBehind (":=".toList ++ (body ++ [';'])) none

def BlankValue (s : List Char) : Prop :=
  ∃ body, behindType? s = some (":=".toList ++ (body ++ [';'])) ∧ trim body = [] ∧
    ∃ c ∈ body, c ≠ '\n'

structure KeepsValue (s : List Char) : Prop where
  kept : ∀ declaration, read? s = some declaration → ∃ rest, behindType? s = some rest ∧
    ((¬ ":=".toList <+: rest ∧ declaration.initialValue = none) ∨
      ∃ body value, rest = ":=".toList ++ (body ++ [';']) ∧
        declaration.initialValue = some value ∧ value.toList = trim body ∧ value ≠ "")
  refused : ∀ body, behindType? s = some (":=".toList ++ body) →
    trim body = [] ∨ trim body = [';'] →
    ∀ (state : State) (scopes : Scopes) (opened : OpenSection) (scope : Scope),
      state.current = some scopes → scopes.varSection = some opened →
      opened.header.scope? = some scope → ∀ pos line comment,
        state.content s pos line comment = (state, some (.malformedDeclaration (String.ofList s)))

variable {s rest body : List Char}

section Value

variable {value : Option String}

theorem initialiser?_sign (body : List Char) :
    initialiser? (":=".toList ++ (body ++ [';'])) =
      if trim body = [] then if body.any (· != '\n') then some none else none
      else if (trim body).contains '\n' then none else some (some (String.ofList (trim body))) := by
  rw [initialiser?, if_neg (by simp), literal_append]
  simp

theorem initialiser?_eq_some_iff : initialiser? rest = some value ↔ ValueBehind rest value := by
  constructor
  · intro read
    by_cases alone : rest = [';']
    · subst alone
      obtain rfl : none = value := Option.some.inj read
      exact .absent
    · have whole := read
      rw [initialiser?, if_neg alone] at whole
      obtain ⟨text, sign, closed⟩ := Option.bind_eq_some_iff.mp whole
      have terminated : text.getLast? = some ';' := by
        by_contra other
        simp [other] at closed
      obtain ⟨body, rfl⟩ := List.getLast?_eq_some_iff.mp terminated
      obtain rfl := literal_eq_some sign
      rw [initialiser?_sign] at read
      split at read
      · rename_i nothing
        simp only [Option.ite_none_right_eq_some, Option.some.injEq] at read
        obtain ⟨hidden, rfl⟩ := read
        exact .blank nothing (by simpa using hidden)
      · rename_i something
        simp only [Option.ite_none_left_eq_some, Option.some.injEq] at read
        obtain ⟨oneLine, rfl⟩ := read
        exact .given something (by simpa using oneLine)
  · rintro (_ | ⟨something, oneLine⟩ | ⟨nothing, hidden⟩)
    · rfl
    · rw [initialiser?_sign, if_neg something, if_neg (by simpa using oneLine)]
    · rw [initialiser?_sign, if_pos nothing, if_pos (by simpa using hidden)]

end Value

theorem valueBehind_of_read? {declaration : Declaration} (read : read? s = some declaration) :
    ∃ rest, behindType? s = some rest ∧ ValueBehind rest declaration.initialValue := by
  simp only [read?, Option.bind_eq_bind, Option.bind_eq_some_iff, Prod.exists,
    Option.ite_none_right_eq_some, Option.some.injEq] at read
  obtain ⟨before, rest, split, type, behind, isType, value, isValue, -, rfl⟩ := read
  exact ⟨trimStart behind, by simp [behindType?, split, isType],
    initialiser?_eq_some_iff.mp isValue⟩

theorem content_malformed (unread : read? s = none) {state : State} {scopes : Scopes}
    {opened : OpenSection} {scope : Scope} (current : state.current = some scopes)
    (inSection : scopes.varSection = some opened) (modelled : opened.header.scope? = some scope)
    (pos : Position) (line : SourceLine) (comment : Option String) :
    state.content s pos line comment = (state, some (.malformedDeclaration (String.ofList s))) := by
  simp [State.content, current, inSection, State.declare, modelled, unread]

theorem trim_concat_semicolon (body : List Char) :
    trim (body ++ [';']) = trimStart body ++ [';'] := by
  rw [trim, Parameter.trimStart_concat (by decide), trimEnd_of_last (by simp; decide)]

theorem trim_eq_nil_of_concat (noValue : trim (body ++ [';']) = [] ∨ trim (body ++ [';']) = [';']) :
    trim body = [] := by
  rw [trim_concat_semicolon] at noValue
  have blank : trimStart body = [] := by simpa using noValue
  rw [trim, blank]
  rfl

theorem not_keepsValue_of_blank (blank : BlankValue s) {declaration : Declaration}
    (read : read? s = some declaration) : ¬ KeepsValue s := by
  rintro ⟨kept, -⟩
  obtain ⟨body, behind, nothing, -⟩ := blank
  obtain ⟨rest, alsoBehind, noSign | ⟨other, value, isRest, -, isValue, nonempty⟩⟩ :=
    kept declaration read
  · obtain rfl := Option.some.inj (behind.symm.trans alsoBehind)
    exact noSign.1 (List.prefix_append _ _)
  · have same := Option.some.inj (behind.symm.trans alsoBehind)
    rw [isRest, List.append_cancel_left_eq, List.append_cancel_right_eq] at same
    rw [← same, nothing] at isValue
    exact nonempty (String.toList_eq_nil_iff.mp isValue)

theorem read?_of_noValue (behind : behindType? s = some (":=".toList ++ body))
    (noValue : trim body = [] ∨ trim body = [';']) (notBlank : BlankValue s → read? s = none) :
    read? s = none := by
  by_contra taken
  obtain ⟨declaration, read⟩ := Option.ne_none_iff_exists'.mp taken
  obtain ⟨rest, alsoBehind, value⟩ := valueBehind_of_read? read
  generalize declaration.initialValue = stored at value
  cases value with
  | absent => cases behind.symm.trans alsoBehind
  | given something =>
    have same := Option.some.inj (behind.symm.trans alsoBehind)
    rw [List.append_cancel_left_eq] at same
    exact something (trim_eq_nil_of_concat (same ▸ noValue))
  | blank nothing hidden => exact taken (notBlank ⟨_, alsoBehind, nothing, hidden⟩)

theorem keepsValue_iff (s : List Char) : KeepsValue s ↔ (BlankValue s → read? s = none) := by
  constructor
  · intro keeps blank
    by_contra taken
    obtain ⟨declaration, read⟩ := Option.ne_none_iff_exists'.mp taken
    exact not_keepsValue_of_blank blank read keeps
  · intro notBlank
    refine ⟨fun declaration read => ?_, fun body behind noValue state scopes opened scope current
      inSection modelled =>
        content_malformed (read?_of_noValue behind noValue notBlank) current inSection modelled⟩
    obtain ⟨rest, behind, value⟩ := valueBehind_of_read? read
    refine ⟨rest, behind, ?_⟩
    generalize declaration.initialValue = stored at value
    cases value with
    | absent => exact .inl ⟨by decide, rfl⟩
    | @given body something => exact .inr ⟨body, _, rfl, rfl, by simp, by simpa using something⟩
    | blank nothing hidden =>
      rw [notBlank ⟨_, behind, nothing, hidden⟩] at read
      cases read

theorem keepsValue_spacedSemicolon :
    ¬ KeepsValue "x : INT := ;".toList ∧
      read? "x : INT := ;".toList =
        some { names := ["x"], type := "INT", initialValue := none } ∧
      read? "x : INT :=;".toList = none := by
  have read : read? "x : INT := ;".toList =
      some { names := ["x"], type := "INT", initialValue := none } := by decide +kernel
  have behind : behindType? "x : INT := ;".toList = some ":= ;".toList := by decide +kernel
  exact ⟨not_keepsValue_of_blank ⟨[' '], behind, rfl, ' ', by decide⟩ read, read, by decide +kernel⟩

end Declaration

end StructuredText
