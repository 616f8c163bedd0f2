import Mathlib.Data.List.Forall2
import StructuredText.Json

set_option autoImplicit false

namespace StructuredText

namespace Json

inductive Alike : Json → Json → Prop where
  | null : Alike .null .null
  | bool (value : Bool) : Alike (.bool value) (.bool value)
  | num (value : Nat) : Alike (.num value) (.num value)
  | str (value : String) : Alike (.str value) (.str value)
  | arr {items others : List Json} (alike : List.Forall₂ Alike items others) :
    Alike (.arr items) (.arr others)
  | obj {fields others : List (String × Json)}
    (alike : ∀ name, Option.Rel Alike (fields.lookup name) (others.lookup name)) :
    Alike (.obj fields) (.obj others)

namespace Alike

mutual

theorem refl : ∀ value : Json, value.Alike value
  | .null => .null
  | .bool value => .bool value
  | .num value => .num value
  | .str value => .str value
  | .arr items => .arr (refl_items items)
  | .obj fields => .obj (refl_fields fields)

theorem refl_items : ∀ items : List Json, List.Forall₂ Alike items items
  | [] => .nil
  | item :: items => .cons (refl item) (refl_items items)

theorem refl_fields : ∀ (fields : List (String × Json)) (name : String),
    Option.Rel Alike (fields.lookup name) (fields.lookup name)
  | [], _ => .none
  | (other, value) :: fields, name => by
    rw [List.lookup_cons]
    cases name == other with
    | true => exact .some (refl value)
    | false => exact refl_fields fields name

end

theorem field {fields others : List (String × Json)}
    (alike : (Json.obj fields).Alike (.obj others)) (name : String) :
    Option.Rel Alike (fields.lookup name) (others.lookup name) := by
  cases alike with
  | obj alike => exact alike name

end Alike

section Parts

@[simp] theorem rel_some_iff {one other : Json} :
    Option.Rel Alike (some one) (some other) ↔ one.Alike other :=
  ⟨fun | .some alike => alike, .some⟩

@[simp] theorem alike_bool_iff {one other : Bool} : (bool one).Alike (bool other) ↔ one = other :=
  ⟨fun | .bool _ => rfl, fun same => same ▸ .bool one⟩

@[simp] theorem alike_num_iff {one other : Nat} : (num one).Alike (num other) ↔ one = other :=
  ⟨fun | .num _ => rfl, fun same => same ▸ .num one⟩

@[simp] theorem alike_str_iff {one other : String} : (str one).Alike (str other) ↔ one = other :=
  ⟨fun | .str _ => rfl, fun same => same ▸ .str one⟩

@[simp] theorem alike_arr_iff {items others : List Json} :
    (arr items).Alike (arr others) ↔ List.Forall₂ Alike items others :=
  ⟨fun | .arr alike => alike, .arr⟩

def shown? (items : List Json) : Option Json :=
  if items.isEmpty then none else some (arr items)

@[simp] theorem rel_shown?_iff {items others : List Json} :
    Option.Rel Alike (shown? items) (shown? others) ↔ List.Forall₂ Alike items others := by
  cases items <;> cases others <;> simp [shown?]

@[simp] theorem lookup_field? (name other : String) (value : Option Json) :
    (field? other value).lookup name = if name = other then value else none := by
  cases value with
  | none => simp [field?]
  | some value =>
    by_cases same : name = other
    · simp [field?, same]
    · have apart : (name == other) = false := beq_eq_false_iff_ne.mpr same
      simp [field?, List.lookup_cons, apart, same]

@[simp] theorem lookup_nonempty? (name other : String) (items : List Json) :
    (nonempty? other items).lookup name = if name = other then shown? items else none := by
  have isField : nonempty? other items = field? other (shown? items) := by cases items <;> rfl
  rw [isField, lookup_field?]

end Parts

def Determined {α : Type} (encode : α → Json) : Prop :=
  ∀ ⦃one other : α⦄, (encode one).Alike (encode other) → one = other

theorem determined_str : Determined str :=
  fun _ _ => alike_str_iff.mp

theorem determined_num : Determined num :=
  fun _ _ => alike_num_iff.mp

namespace Determined

variable {α : Type} {encode : α → Json} (determined : Determined encode)

include determined

theorem option {one other : Option α}
    (alike : Option.Rel Alike (one.map encode) (other.map encode)) : one = other := by
  cases one with
  | none =>
    cases other with
    | none => rfl
    | some b => cases alike
  | some a =>
    cases other with
    | none => cases alike
    | some b => rw [determined (rel_some_iff.mp alike)]

theorem list {one other : List α}
    (alike : List.Forall₂ (fun a b => (encode a).Alike (encode b)) one other) : one = other := by
  induction alike with
  | nil => rfl
  | cons first _ ih => rw [determined first, ih]

end Determined

end Json

end StructuredText
