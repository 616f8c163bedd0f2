import Mathlib.Computability.Language
import StructuredText.Document.State

set_option autoImplicit false

namespace StructuredText.DocumentGrammar

open scoped Computability

def one (sort : Boundary → Prop) : Language Boundary :=
  {word | ∃ boundary, sort boundary ∧ word = [boundary]}

def pouHeader (kind : PouKind) : Language Boundary :=
  one fun boundary => ∃ header : PouHeader, header.kind = kind ∧ boundary = .pou header

def methodHeader : Language Boundary :=
  one fun boundary => ∃ header, boundary = .method header

def propertyHeader : Language Boundary :=
  one fun boundary => ∃ header, boundary = .property header

def sectionHeader : Language Boundary :=
  one fun boundary => ∃ header, boundary = .varSection header

def closing (word : ClosingWord) : Language Boundary :=
  one fun boundary => boundary = .closing word

def accessorEnd : Language Boundary :=
  closing .get + closing .set

def varSection : Language Boundary :=
  sectionHeader * closing .var

def propertySection : Language Boundary :=
  sectionHeader * accessorEnd∗ * closing .var

def method : Language Boundary :=
  methodHeader * varSection∗ * closing .method

def property : Language Boundary :=
  propertyHeader * (propertySection + accessorEnd)∗ * closing .property

def contents : PouKind → Language Boundary
  | .functionBlock => varSection + method + property
  | .program | .function => varSection

def pou (kind : PouKind) : Language Boundary :=
  pouHeader kind * (contents kind)∗ * closing (.pou kind)

def document : Language Boundary :=
  (pou .program + pou .function + pou .functionBlock)∗

inductive Place where
  | outside
  | inPou (kind : PouKind) (inSection : Bool)
  | inMethod (inSection : Bool)
  | inProperty (inSection : Bool)
  deriving DecidableEq

namespace Place

def follow : Place → Boundary → Option Place
  | outside, .pou header => some (inPou header.kind false)
  | inPou kind false, .closing (.pou closed) => if closed = kind then some outside else none
  | inPou kind false, .varSection _ => some (inPou kind true)
  | inPou kind true, .closing .var => some (inPou kind false)
  | inPou .functionBlock false, .method _ => some (inMethod false)
  | inPou .functionBlock false, .property _ => some (inProperty false)
  | inMethod false, .varSection _ => some (inMethod true)
  | inMethod true, .closing .var => some (inMethod false)
  | inMethod false, .closing .method => some (inPou .functionBlock false)
  | inProperty false, .varSection _ => some (inProperty true)
  | inProperty true, .closing .var => some (inProperty false)
  | inProperty inSection, .closing .get => some (inProperty inSection)
  | inProperty inSection, .closing .set => some (inProperty inSection)
  | inProperty false, .closing .property => some (inPou .functionBlock false)
  | _, _ => none

def restOfPou (kind : PouKind) : Language Boundary :=
  (contents kind)∗ * (closing (.pou kind) * document)

def restOfMethod : Language Boundary :=
  varSection∗ * (closing .method * restOfPou .functionBlock)

def restOfProperty : Language Boundary :=
  (propertySection + accessorEnd)∗ * (closing .property * restOfPou .functionBlock)

def restOfPropertySection : Language Boundary :=
  accessorEnd∗ * (closing .var * restOfProperty)

def rest : Place → Language Boundary
  | outside => document
  | inPou kind false => restOfPou kind
  | inPou kind true => closing .var * restOfPou kind
  | inMethod false => restOfMethod
  | inMethod true => closing .var * restOfMethod
  | inProperty false => restOfProperty
  | inProperty true => restOfPropertySection

end Place

theorem cons_mem_one_mul (sort : Boundary → Prop) (after : Language Boundary) (first : Boundary)
    (word : List Boundary) : first :: word ∈ one sort * after ↔ sort first ∧ word ∈ after := by
  rw [Language.mem_mul]
  constructor
  · rintro ⟨_, ⟨boundary, isSort, rfl⟩, tail, member, split⟩
    obtain ⟨rfl, rfl⟩ := List.cons.inj split
    exact ⟨isSort, member⟩
  · rintro ⟨isSort, member⟩
    exact ⟨[first], ⟨first, isSort, rfl⟩, word, member, rfl⟩

section Cons

variable (after : Language Boundary) (first : Boundary) (word : List Boundary)

@[simp] theorem cons_mem_pouHeader_mul (kind : PouKind) :
    first :: word ∈ pouHeader kind * after ↔
      (∃ header : PouHeader, header.kind = kind ∧ first = .pou header) ∧ word ∈ after :=
  cons_mem_one_mul ..

@[simp] theorem cons_mem_methodHeader_mul :
    first :: word ∈ methodHeader * after ↔ (∃ header, first = .method header) ∧ word ∈ after :=
  cons_mem_one_mul ..

@[simp] theorem cons_mem_propertyHeader_mul :
    first :: word ∈ propertyHeader * after ↔ (∃ header, first = .property header) ∧ word ∈ after :=
  cons_mem_one_mul ..

@[simp] theorem cons_mem_sectionHeader_mul :
    first :: word ∈ sectionHeader * after ↔ (∃ header, first = .varSection header) ∧ word ∈ after :=
  cons_mem_one_mul ..

@[simp] theorem cons_mem_closing_mul (closer : ClosingWord) :
    first :: word ∈ closing closer * after ↔ first = .closing closer ∧ word ∈ after :=
  cons_mem_one_mul ..

end Cons

theorem nil_notMem_one_mul (sort : Boundary → Prop) (after : Language Boundary) :
    [] ∉ one sort * after := by
  rw [Language.mem_mul]
  rintro ⟨_, ⟨boundary, -, rfl⟩, tail, -, split⟩
  cases split

theorem kstar_mul_eq (again after : Language Boundary) :
    again∗ * after = after + again * (again∗ * after) := by
  conv_lhs => rw [← Language.one_add_self_mul_kstar_eq_kstar]
  rw [add_mul, one_mul, mul_assoc]

theorem document_eq :
    document = 1 + (pouHeader .program * Place.restOfPou .program +
      pouHeader .function * Place.restOfPou .function +
      pouHeader .functionBlock * Place.restOfPou .functionBlock) := by
  conv_lhs => rw [document, ← Language.one_add_self_mul_kstar_eq_kstar, ← document]
  simp only [pou, Place.restOfPou, add_mul, mul_assoc]

namespace Place

theorem restOfPou_eq (kind : PouKind) :
    restOfPou kind = closing (.pou kind) * document + contents kind * restOfPou kind :=
  kstar_mul_eq _ _

theorem restOfMethod_eq :
    restOfMethod =
      closing .method * restOfPou .functionBlock +
        sectionHeader * (closing .var * restOfMethod) := by
  conv_lhs => rw [restOfMethod, kstar_mul_eq, ← restOfMethod, varSection, mul_assoc]

theorem restOfProperty_eq :
    restOfProperty =
      closing .property * restOfPou .functionBlock +
        (sectionHeader * restOfPropertySection +
          (closing .get * restOfProperty + closing .set * restOfProperty)) := by
  conv_lhs => rw [restOfProperty, kstar_mul_eq, ← restOfProperty]
  simp only [propertySection, accessorEnd, restOfPropertySection, add_mul, mul_assoc]

theorem restOfPropertySection_eq :
    restOfPropertySection =
      closing .var * restOfProperty +
        (closing .get * restOfPropertySection + closing .set * restOfPropertySection) := by
  conv_lhs =>
    rw [restOfPropertySection, kstar_mul_eq, ← restOfPropertySection, accessorEnd, add_mul]

theorem contents_mul (kind : PouKind) :
    contents kind * restOfPou kind =
      sectionHeader * (closing .var * restOfPou kind) +
        match kind with
        | .functionBlock => methodHeader * restOfMethod + propertyHeader * restOfProperty
        | .program | .function => 0 := by
  cases kind with
  | functionBlock =>
    simp only [contents, varSection, method, property, restOfMethod, restOfProperty, add_mul,
      mul_assoc, add_assoc]
  | program | function => simp only [contents, varSection, mul_assoc, add_zero]

theorem nil_mem_rest (place : Place) : [] ∈ place.rest ↔ place = outside := by
  cases place with
  | outside => simp [rest, document, Language.nil_mem_kstar]
  | inPou kind inSection =>
    cases inSection
    · rw [rest, restOfPou_eq, contents_mul]
      cases kind <;>
        simp only [Language.mem_add, Language.notMem_zero, closing, sectionHeader, methodHeader,
          propertyHeader, nil_notMem_one_mul, reduceCtorEq, or_self]
    · simp only [rest, closing, nil_notMem_one_mul, reduceCtorEq]
  | inMethod inSection =>
    cases inSection
    · rw [rest, restOfMethod_eq]
      simp only [Language.mem_add, closing, sectionHeader, nil_notMem_one_mul, reduceCtorEq,
        or_self]
    · simp only [rest, closing, nil_notMem_one_mul, reduceCtorEq]
  | inProperty inSection =>
    cases inSection
    · rw [rest, restOfProperty_eq]
      simp only [Language.mem_add, closing, sectionHeader, nil_notMem_one_mul, reduceCtorEq,
        or_self]
    · rw [rest, restOfPropertySection_eq]
      simp only [Language.mem_add, closing, nil_notMem_one_mul, reduceCtorEq, or_self]

theorem cons_mem_rest (place : Place) (first : Boundary) (word : List Boundary) :
    first :: word ∈ place.rest ↔ ∃ next, place.follow first = some next ∧ word ∈ next.rest := by
  -- Each place goes on with the rules of what is open there.
  cases place with
  | outside =>
    rw [rest, document_eq]
    simp only [Language.mem_add, Language.mem_one, cons_mem_pouHeader_mul]
    cases first with
    | pou header => cases kind : header.kind <;> simp [follow, rest, kind]
    | _ => simp [follow]
  | inPou kind inSection =>
    cases inSection with
    | false =>
      rw [rest, restOfPou_eq, contents_mul]
      cases kind <;> simp only [Language.mem_add, Language.notMem_zero]
      all_goals
        cases first with
        | closing closer => cases closer <;> simp [follow, rest]
        | _ => simp [follow, rest]
    | true =>
      cases first with
      | closing closer => cases closer <;> simp [follow, rest]
      | _ => simp [follow, rest]
  | inMethod inSection =>
    cases inSection with
    | false =>
      rw [rest, restOfMethod_eq]
      simp only [Language.mem_add]
      cases first with
      | closing closer => cases closer <;> simp [follow, rest]
      | _ => simp [follow, rest]
    | true =>
      cases first with
      | closing closer => cases closer <;> simp [follow, rest]
      | _ => simp [follow, rest]
  | inProperty inSection =>
    cases inSection with
    | false =>
      rw [rest, restOfProperty_eq]
      simp only [Language.mem_add]
      cases first with
      | closing closer => cases closer <;> simp [follow, rest]
      | _ => simp [follow, rest]
    | true =>
      rw [rest, restOfPropertySection_eq]
      simp only [Language.mem_add]
      cases first with
      | closing closer => cases closer <;> simp [follow, rest]
      | _ => simp [follow]

theorem mem_rest_iff (place : Place) (word : List Boundary) :
    word ∈ place.rest ↔ word.foldlM follow place = some outside := by
  induction word generalizing place with
  | nil =>
    rw [nil_mem_rest]
    simp
  | cons first word ih =>
    rw [cons_mem_rest, List.foldlM_cons]
    simp only [ih, Option.bind_eq_bind, Option.bind_eq_some_iff]

end Place

end StructuredText.DocumentGrammar
