import StructuredText.Json

set_option autoImplicit false

namespace StructuredText

namespace Json

section Numbers

def EndsNumber (rest : List Char) : Prop :=
  ∀ c ∈ rest.head?, c.isDigit = false

theorem isDigit_of_mem {n : Nat} {c : Char} (member : c ∈ Nat.toDigits 10 n) : c.isDigit = true :=
  Nat.isDigit_of_mem_toDigits (by decide) (by decide) member

theorem takeWhile_digits (n : Nat) {rest : List Char} (ends : EndsNumber rest) :
    (Nat.toDigits 10 n ++ rest).takeWhile Char.isDigit = Nat.toDigits 10 n := by
  have stops : rest.takeWhile Char.isDigit = [] := by
    cases rest with
    | nil => rfl
    | cons c rest => simp [ends c rfl]
  rw [List.takeWhile_append_of_pos fun c => isDigit_of_mem, stops, List.append_nil]

theorem digits_inj {m n : Nat} {rest later : List Char} (ends : EndsNumber rest)
    (others : EndsNumber later) (same : Nat.toDigits 10 m ++ rest = Nat.toDigits 10 n ++ later) :
    m = n ∧ rest = later := by
  have digits := congrArg (List.takeWhile Char.isDigit) same
  rw [takeWhile_digits m ends, takeWhile_digits n others] at digits
  have values := congrArg (Nat.ofDigitChars 10 · 0) digits
  simp only [Nat.ofDigitChars_ten_toDigits] at values
  rw [digits] at same
  exact ⟨values, List.append_cancel_left same⟩

end Numbers

section Strings

def hexValue (c : Char) : Nat :=
  if c.isDigit then c.toNat - 48 else c.toNat - 87

def unescape : List Char → Option (Char × List Char)
  | '\\' :: 'b' :: rest => some ('\x08', rest)
  | '\\' :: 't' :: rest => some ('\t', rest)
  | '\\' :: 'n' :: rest => some ('\n', rest)
  | '\\' :: 'f' :: rest => some ('\x0c', rest)
  | '\\' :: 'r' :: rest => some ('\r', rest)
  | '\\' :: 'u' :: '0' :: '0' :: high :: low :: rest =>
    some (Char.ofNat (16 * hexValue high + hexValue low), rest)
  | '\\' :: c :: rest => some (c, rest)
  | '\x22' :: _ => none
  | c :: rest => some (c, rest)
  | [] => none

theorem hexValue_hexDigit : ∀ n < 16, hexValue (hexDigit n) = n := by
  decide

theorem unescape_escapeChar (c : Char) (rest : List Char) :
    unescape (escapeChar c ++ rest) = some (c, rest) := by
  fun_cases escapeChar c with
  | case8 =>
    have high := hexValue_hexDigit (c.toNat / 16) (by omega)
    have low := hexValue_hexDigit (c.toNat % 16) (by omega)
    simp [unescape, high, low, Nat.div_add_mod, Char.ofNat_toNat]
  | case9 =>
    rw [List.singleton_append, unescape.eq_def]
    split <;> simp_all
  | _ => simp_all [unescape]

theorem unescape_quote (rest : List Char) : unescape ('\x22' :: rest) = none := by
  simp [unescape]

theorem escaped_inj {text other rest later : List Char}
    (same : text.flatMap escapeChar ++ '\x22' :: rest =
      other.flatMap escapeChar ++ '\x22' :: later) :
    text = other ∧ rest = later := by
  have read := congrArg unescape same
  induction text generalizing other with
  | nil =>
    cases other with
    | nil => exact ⟨rfl, (List.cons.inj same).2⟩
    | cons d other => simp [unescape_escapeChar, unescape_quote] at read
  | cons c text ih =>
    cases other with
    | nil => simp [unescape_escapeChar, unescape_quote] at read
    | cons d other =>
      simp only [List.flatMap_cons, List.append_assoc, unescape_escapeChar, Option.some.injEq,
        Prod.mk.injEq] at read
      obtain ⟨rfl, others⟩ := read
      obtain ⟨rfl, behind⟩ := ih others (congrArg unescape others)
      exact ⟨rfl, behind⟩

theorem toList_quote (s : String) :
    (quote s).toList = '\x22' :: (s.toList.flatMap escapeChar ++ ['\x22']) := by
  simp [quote]

theorem quote_inj {s t : String} {rest later : List Char}
    (same : (quote s).toList ++ rest = (quote t).toList ++ later) : s = t ∧ rest = later := by
  simp only [toList_quote, List.cons_append, List.append_assoc, List.nil_append, List.cons.injEq,
    true_and] at same
  obtain ⟨texts, behind⟩ := escaped_inj same
  exact ⟨String.toList_inj.mp texts, behind⟩

end Strings

section Lists

def remainder (depth : Nat) (close : Char) (texts : List String) : List Char :=
  (texts.flatMap fun text => ',' :: text.toList) ++ ((newline depth).toList ++ [close])

def enclosed (depth : Nat) (opening close : Char) : List String → List Char
  | [] => [opening, close]
  | text :: texts => opening :: (text.toList ++ remainder depth close texts)

theorem toList_newline (depth : Nat) :
    (newline depth).toList = '\n' :: List.replicate (2 * depth) ' ' := by
  simp [newline]

theorem remainder_nil (depth : Nat) (close : Char) :
    remainder depth close [] = '\n' :: (List.replicate (2 * depth) ' ' ++ [close]) := by
  simp [remainder, toList_newline]

theorem remainder_cons (depth : Nat) (close : Char) (text : String) (texts : List String) :
    remainder depth close (text :: texts) =
      ',' :: (text.toList ++ remainder depth close texts) := by
  simp [remainder]

theorem endsNumber_remainder (depth : Nat) (close : Char) (texts : List String)
    (rest : List Char) : EndsNumber (remainder depth close texts ++ rest) := by
  cases texts with
  | nil => simp [remainder_nil, EndsNumber]
  | cons text texts => simp [remainder_cons, EndsNumber]

theorem toList_intercalate (text : String) (texts : List String) :
    (",".intercalate (text :: texts)).toList =
      text.toList ++ texts.flatMap fun text => ',' :: text.toList := by
  rw [String.toList_intercalate]
  induction texts generalizing text with
  | nil => simp [List.intercalate]
  | cons other texts ih =>
    have others := ih other
    simp [List.intercalate] at others ⊢
    exact others

theorem toList_joined {opening closing : String} {first last : Char}
    (opens : opening.toList = [first]) (closes : closing.toList = [last]) (depth : Nat)
    (text : String) (texts : List String) :
    (opening ++ ",".intercalate (text :: texts) ++ newline depth ++ closing).toList =
      enclosed depth first last (text :: texts) := by
  simp only [String.toList_append, toList_intercalate, opens, closes, enclosed, remainder,
    List.append_assoc, List.cons_append, List.nil_append]

def Legible {α : Type} (write : α → String) (element : α) : Prop :=
  ∀ ⦃other : α⦄ ⦃rest later : List Char⦄, EndsNumber rest → EndsNumber later →
    (write element).toList ++ rest = (write other).toList ++ later →
      element = other ∧ rest = later

variable {α : Type} {write : α → String} {depth : Nat} {close : Char}

theorem remainder_inj {elements others : List α}
    (legible : ∀ element ∈ elements, Legible write element) {rest later : List Char}
    (same : remainder depth close (elements.map write) ++ rest =
      remainder depth close (others.map write) ++ later) :
    elements = others ∧ rest = later := by
  induction elements generalizing others with
  | nil =>
    cases others with
    | nil => exact ⟨rfl, List.append_cancel_left same⟩
    | cons other others => simp [remainder_nil, remainder_cons] at same
  | cons element elements ih =>
    cases others with
    | nil => simp [remainder_nil, remainder_cons] at same
    | cons other others =>
      simp only [List.map_cons, remainder_cons, List.cons_append, List.append_assoc,
        List.cons.injEq, true_and] at same
      obtain ⟨first, remaining⟩ := List.forall_mem_cons.mp legible
      obtain ⟨rfl, behind⟩ := first (endsNumber_remainder _ _ _ _) (endsNumber_remainder _ _ _ _)
        same
      obtain ⟨rfl, last⟩ := ih remaining behind
      exact ⟨rfl, last⟩

theorem enclosed_inj {opening : Char} {elements others : List α}
    (legible : ∀ element ∈ elements, Legible write element)
    (begins : ∀ element, (write element).toList.head? = some '\n') (closes : close ≠ '\n')
    {rest later : List Char}
    (same : enclosed depth opening close (elements.map write) ++ rest =
      enclosed depth opening close (others.map write) ++ later) :
    elements = others ∧ rest = later := by
  cases elements with
  | nil =>
    cases others with
    | nil => exact ⟨rfl, List.append_cancel_left same⟩
    | cons other others =>
      -- An empty list closes at once, and one with an element begins on a new line.
      have heads := congrArg (fun text => text.tail.head?) same
      simp [enclosed, begins other] at heads
      exact absurd heads closes
  | cons element elements =>
    cases others with
    | nil =>
      have heads := congrArg (fun text => text.tail.head?) same
      simp [enclosed, begins element] at heads
      exact absurd heads.symm closes
    | cons other others =>
      simp only [List.map_cons, enclosed, List.cons_append, List.append_assoc,
        List.cons.injEq, true_and] at same
      obtain ⟨first, remaining⟩ := List.forall_mem_cons.mp legible
      obtain ⟨rfl, behind⟩ := first (endsNumber_remainder _ _ _ _) (endsNumber_remainder _ _ _ _)
        same
      obtain ⟨rfl, last⟩ := remainder_inj remaining behind
      exact ⟨rfl, last⟩

end Lists

section Values

def itemText (depth : Nat) (item : Json) : String :=
  newline depth ++ pretty depth item

def fieldText (depth : Nat) (field : String × Json) : String :=
  newline depth ++ quote field.1 ++ ": " ++ pretty depth field.2

theorem prettyItems_eq_map (depth : Nat) (items : List Json) :
    prettyItems depth items = items.map (itemText depth) := by
  induction items with
  | nil => rfl
  | cons item items ih => rw [prettyItems, ih, List.map_cons, itemText]

theorem prettyFields_eq_map (depth : Nat) (fields : List (String × Json)) :
    prettyFields depth fields = fields.map (fieldText depth) := by
  induction fields with
  | nil => rfl
  | cons field fields ih => rw [prettyFields, ih, List.map_cons, fieldText]

theorem toList_pretty_num (depth value : Nat) :
    (pretty depth (num value)).toList = Nat.toDigits 10 value := by
  simp [pretty]

theorem toList_pretty_arr (depth : Nat) (items : List Json) :
    (pretty depth (arr items)).toList =
      enclosed depth '[' ']' (items.map (itemText (depth + 1))) := by
  cases items with
  | nil => simp [pretty, enclosed]
  | cons item items =>
    rw [pretty, prettyItems_eq_map, List.map_cons]
    · exact toList_joined (by decide) (by decide) depth _ _
    · exact nofun

theorem toList_pretty_obj (depth : Nat) (fields : List (String × Json)) :
    (pretty depth (obj fields)).toList =
      enclosed depth '\x7b' '\x7d' (fields.map (fieldText (depth + 1))) := by
  cases fields with
  | nil => simp [pretty, enclosed]
  | cons field fields =>
    rw [pretty, prettyFields_eq_map, List.map_cons]
    · exact toList_joined (by decide) (by decide) depth _ _
    · exact nofun

-- The sign that a value begins with. One digit stands for all, and `t` for both truth values.
def lead : Json → Char
  | null => 'n'
  | bool _ => 't'
  | num _ => '0'
  | str _ => '\x22'
  | arr _ => '['
  | obj _ => '\x7b'

def leadOf (text : List Char) : Option Char :=
  text.head?.map fun c => if c.isDigit then '0' else if c = 'f' then 't' else c

theorem leadOf_pretty (depth : Nat) (value : Json) (rest : List Char) :
    leadOf ((pretty depth value).toList ++ rest) = some value.lead := by
  cases value with
  | null => simp [pretty, leadOf, lead]
  | bool value => cases value <;> simp [pretty, leadOf, lead]
  | num value =>
    cases digits : Nat.toDigits 10 value with
    | nil => exact absurd digits Nat.toDigits_ne_nil
    | cons c others =>
      have isDigit := isDigit_of_mem (n := value) (c := c) (by simp [digits])
      simp [toList_pretty_num, digits, leadOf, isDigit, lead]
  | str value => simp [pretty, toList_quote, leadOf, lead]
  | arr items => cases items <;> simp [toList_pretty_arr, enclosed, leadOf, lead]
  | obj fields => cases fields <;> simp [toList_pretty_obj, enclosed, leadOf, lead]

theorem lead_eq {depth : Nat} {one other : Json} {rest later : List Char}
    (same : (pretty depth one).toList ++ rest = (pretty depth other).toList ++ later) :
    one.lead = other.lead := by
  have leads := congrArg leadOf same
  rw [leadOf_pretty, leadOf_pretty] at leads
  exact Option.some.inj leads

theorem legible_null (depth : Nat) : Legible (pretty depth) null := by
  intro other rest later _ _ same
  cases other with
  | null => exact ⟨rfl, List.append_cancel_left same⟩
  | _ => exact absurd (lead_eq same) (by simp [lead])

theorem legible_bool (depth : Nat) (value : Bool) : Legible (pretty depth) (bool value) := by
  intro other rest later _ _ same
  cases other with
  | bool other => cases value <;> cases other <;> simp_all [pretty]
  | _ => exact absurd (lead_eq same) (by simp [lead])

theorem legible_num (depth value : Nat) : Legible (pretty depth) (num value) := by
  intro other rest later ends others same
  cases other with
  | num other =>
    rw [toList_pretty_num, toList_pretty_num] at same
    obtain ⟨rfl, behind⟩ := digits_inj ends others same
    exact ⟨rfl, behind⟩
  | _ => exact absurd (lead_eq same) (by simp [lead])

theorem legible_str (depth : Nat) (value : String) : Legible (pretty depth) (str value) := by
  intro other rest later _ _ same
  cases other with
  | str other =>
    rw [pretty, pretty] at same
    obtain ⟨rfl, behind⟩ := quote_inj same
    exact ⟨rfl, behind⟩
  | _ => exact absurd (lead_eq same) (by simp [lead])

theorem legible_arr {depth : Nat} {items : List Json}
    (legible : ∀ item ∈ items, Legible (pretty (depth + 1)) item) :
    Legible (pretty depth) (arr items) := by
  intro other rest later _ _ same
  cases other with
  | arr others =>
    have elements : ∀ item ∈ items, Legible (itemText (depth + 1)) item := by
      intro item member other rest later ends others same
      simp only [itemText, String.toList_append, List.append_assoc] at same
      exact legible item member ends others (List.append_cancel_left same)
    rw [toList_pretty_arr, toList_pretty_arr] at same
    obtain ⟨rfl, behind⟩ := enclosed_inj elements
      (fun item => by simp [itemText, toList_newline]) (by decide) same
    exact ⟨rfl, behind⟩
  | _ => exact absurd (lead_eq same) (by simp [lead])

theorem legible_obj {depth : Nat} {fields : List (String × Json)}
    (legible : ∀ field ∈ fields, Legible (pretty (depth + 1)) field.2) :
    Legible (pretty depth) (obj fields) := by
  intro other rest later _ _ same
  cases other with
  | obj others =>
    have elements : ∀ field ∈ fields, Legible (fieldText (depth + 1)) field := by
      rintro ⟨name, value⟩ member ⟨otherName, otherValue⟩ rest later ends others same
      simp only [fieldText, String.toList_append, List.append_assoc] at same
      obtain ⟨rfl, behind⟩ := quote_inj (List.append_cancel_left same)
      obtain ⟨rfl, last⟩ := legible _ member ends others (List.append_cancel_left behind)
      exact ⟨rfl, last⟩
    rw [toList_pretty_obj, toList_pretty_obj] at same
    obtain ⟨rfl, behind⟩ := enclosed_inj elements
      (fun field => by simp [fieldText, toList_newline]) (by decide) same
    exact ⟨rfl, behind⟩
  | _ => exact absurd (lead_eq same) (by simp [lead])

mutual

theorem legible : ∀ (value : Json) (depth : Nat), Legible (pretty depth) value
  | .null, depth => legible_null depth
  | .bool value, depth => legible_bool depth value
  | .num value, depth => legible_num depth value
  | .str value, depth => legible_str depth value
  | .arr items, depth => legible_arr (legible_items items (depth + 1))
  | .obj fields, depth => legible_obj (legible_fields fields (depth + 1))

theorem legible_items : ∀ (items : List Json) (depth : Nat),
    ∀ item ∈ items, Legible (pretty depth) item
  | [], _ => nofun
  | item :: items, depth =>
    List.forall_mem_cons.mpr ⟨legible item depth, legible_items items depth⟩

theorem legible_fields : ∀ (fields : List (String × Json)) (depth : Nat),
    ∀ field ∈ fields, Legible (pretty depth) field.2
  | [], _ => nofun
  | (_, value) :: fields, depth =>
    List.forall_mem_cons.mpr ⟨legible value depth, legible_fields fields depth⟩

end

theorem pretty_injective (depth : Nat) : Function.Injective (pretty depth) := by
  intro one other same
  have ends : EndsNumber [] := nofun
  exact (legible one depth ends ends (by rw [same])).1

end Values

end Json

end StructuredText
