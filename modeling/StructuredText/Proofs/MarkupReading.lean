import StructuredText.Grammar.Reader
import StructuredText.PlcOpen.Markup

set_option autoImplicit false

namespace StructuredText.PlcOpen

open Reader

-- Reads items up to an end. An item that takes nothing off the text is none.
def readUntil {α : Type} (ending : Reader) (item : List Char → Option (α × List Char))
    (s : List Char) : Option (List α × List Char) :=
  match ending s with
  | some rest => some ([], rest)
  | none =>
    match item s with
    | none => none
    | some (first, rest) =>
      if rest.length < s.length then
        (readUntil ending item rest).map fun (others, after) => (first :: others, after)
      else none
termination_by s.length

section ReadUntil

variable {α : Type} {ending : Reader} {item : List Char → Option (α × List Char)}
  {s rest : List Char} {first : α}

theorem readUntil_of_ending (ends : ending s = some rest) :
    readUntil ending item s = some ([], rest) := by
  rw [readUntil, ends]

theorem readUntil_of_item (goesOn : ending s = none) (reads : item s = some (first, rest))
    (shorter : rest.length < s.length) :
    readUntil ending item s =
      (readUntil ending item rest).map fun (others, after) => (first :: others, after) := by
  rw [readUntil, goesOn, reads]
  exact if_pos shorter

theorem readUntil_of_none (goesOn : ending s = none) (unread : item s = none) :
    readUntil ending item s = none := by
  rw [readUntil, goesOn, unread]

theorem readUntil_length {found : List α}
    (ends : ∀ s rest, ending s = some rest → rest.length ≤ s.length)
    (reads : readUntil ending item s = some (found, rest)) : rest.length ≤ s.length := by
  fun_induction readUntil ending item s generalizing found with
  | case1 s after stop =>
    cases reads
    exact ends s rest stop
  | case2 s goesOn unread => cases reads
  | case3 s goesOn first after isItem shorter ih =>
    obtain ⟨⟨others, last⟩, deeper, same⟩ := Option.map_eq_some_iff.mp reads
    cases same
    exact Nat.le_trans (ih deeper) (Nat.le_of_lt shorter)
  | case4 s goesOn first after isItem stuck => cases reads

theorem readUntil_flatMap {write : α → List Char} {after : List Char} {items : List α}
    (ends : ending s = some after)
    (goesOn : ∀ a ∈ items, ∀ rest, ending (write a ++ rest) = none)
    (reads : ∀ a ∈ items, ∀ rest, item (write a ++ rest) = some (a, rest))
    (nonempty : ∀ a ∈ items, write a ≠ []) :
    readUntil ending item (items.flatMap write ++ s) = some (items, after) := by
  induction items with
  | nil => exact readUntil_of_ending ends
  | cons a items ih =>
    obtain ⟨⟨goesOn, laterGoesOn⟩, ⟨reads, laterReads⟩, ⟨nonempty, laterNonempty⟩⟩ :=
      And.intro (List.forall_mem_cons.mp goesOn)
        (And.intro (List.forall_mem_cons.mp reads) (List.forall_mem_cons.mp nonempty))
    have positive := List.length_pos_iff.mpr nonempty
    rw [List.flatMap_cons, List.append_assoc, readUntil_of_item (goesOn _) (reads _),
      ih laterGoesOn laterReads laterNonempty]
    · rfl
    · simp only [List.length_append]
      omega

end ReadUntil

theorem literal_append (keyword : String) (rest : List Char) :
    literal keyword (keyword.toList ++ rest) = some rest := by
  simp [literal]

inductive Token where
  | char (c : Char)
  | opening (name : String) (attributes : List (String × String))
  | closing (name : String)
  deriving DecidableEq

def textEntities : List (String × Char) :=
  [("amp;", '&'), ("lt;", '<'), ("gt;", '>')]

def attributeEntities : List (String × Char) :=
  textEntities ++ [("quot;", '\x22'), ("apos;", '\x27')]

def anyChar? : List Char → Option (Char × List Char)
  | [] => none
  | c :: rest => some (c, rest)

def escapedChar? (entities : List (String × Char)) : List Char → Option (Char × List Char)
  | [] => none
  | c :: rest =>
    if c = '&' then
      entities.findSome? fun (entity, meant) => (literal entity rest).map fun rest => (meant, rest)
    else if c = '<' then none
    else some (c, rest)

def name? (s : List Char) : Option (String × List Char) :=
  if s.takeWhile Char.isAlphanum = [] then none
  else some (String.ofList (s.takeWhile Char.isAlphanum), s.dropWhile Char.isAlphanum)

def attribute? (s : List Char) : Option ((String × String) × List Char) := do
  let rest ← literal " " s
  let (name, rest) ← name? rest
  let rest ← literal "=\x22" rest
  let (value, rest) ← readUntil (literal "\x22") (escapedChar? attributeEntities) rest
  some ((name, String.ofList value), rest)

def beforeTagEnd : Reader := fun s =>
  if s.head? = some '>' ∨ s.head? = some '/' then some s else none

def opening? (s : List Char) : Option (List Token × List Char) := do
  let rest ← literal "<" s
  let (name, rest) ← name? rest
  let (attributes, rest) ← readUntil beforeTagEnd attribute? rest
  ((literal ">" rest).map fun rest => ([.opening name attributes], rest)).or
    ((literal "/>" rest).map fun rest => ([.opening name attributes, .closing name], rest))

def closing? (s : List Char) : Option (List Token × List Char) := do
  let rest ← literal "</" s
  let (name, rest) ← name? rest
  let rest ← literal ">" rest
  some ([.closing name], rest)

def cdataSection? (s : List Char) : Option (List Token × List Char) := do
  let rest ← literal "<![CDATA[" s
  let (text, rest) ← readUntil (literal "]]>") anyChar? rest
  some (text.map .char, rest)

def part? (s : List Char) : Option (List Token × List Char) :=
  (cdataSection? s).or <| (closing? s).or <| (opening? s).or <|
    (escapedChar? textEntities s).map fun (c, rest) => ([.char c], rest)

def atEnd : Reader := fun s =>
  if s = [] then some [] else none

def tokens (s : List Char) : Option (List Token) :=
  (readUntil atEnd part? s).map fun (parts, _) => parts.flatten

@[simp] theorem tokens_nil : tokens [] = some [] := by
  have ends : atEnd [] = some [] := rfl
  rw [tokens, readUntil_of_ending ends]
  rfl

theorem tokens_of_part {s rest : List Char} {found : List Token}
    (reads : part? s = some (found, rest)) (shorter : rest.length < s.length) :
    tokens s = (tokens rest).map (found ++ ·) := by
  have nonempty : s ≠ [] := by
    rintro rfl
    simp at shorter
  rw [tokens, readUntil_of_item (by simp [atEnd, nonempty]) reads shorter, tokens]
  simp only [Option.map_map]
  rfl

def StandsFor (s : List Char) (found : List Token) : Prop :=
  ∀ rest, tokens (s ++ rest) = (tokens rest).map (found ++ ·)

namespace StandsFor

theorem nil : StandsFor [] [] := by
  intro rest
  simp

theorem append {s t : List Char} {first second : List Token} (one : StandsFor s first)
    (other : StandsFor t second) : StandsFor (s ++ t) (first ++ second) := by
  intro rest
  rw [List.append_assoc, one, other, Option.map_map]
  simp [Function.comp_def]

theorem flatMap {α : Type} {write : α → List Char} {found : α → List Token}
    (each : ∀ a, StandsFor (write a) (found a)) (items : List α) :
    StandsFor (items.flatMap write) (items.flatMap found) := by
  induction items with
  | nil => exact nil
  | cons a items ih => exact (each a).append ih

theorem of_part {s : List Char} {found : List Token} (nonempty : s ≠ [])
    (reads : ∀ rest, part? (s ++ rest) = some (found, rest)) : StandsFor s found := by
  intro rest
  have positive := List.length_pos_iff.mpr nonempty
  refine tokens_of_part (reads rest) ?_
  simp only [List.length_append]
  omega

theorem tokens_eq {s : List Char} {found : List Token} (stands : StandsFor s found) :
    tokens s = some found := by
  have whole := stands []
  simpa using whole

end StandsFor

theorem escapedChar?_self {c : Char} (entities : List (String × Char)) (rest : List Char)
    (noAmpersand : c ≠ '&') (noBracket : c ≠ '<') :
    escapedChar? entities (c :: rest) = some (c, rest) := by
  simp [escapedChar?, noAmpersand, noBracket]

def escapeTextChar (c : Char) : List Char :=
  if c = '&' then "&amp;".toList
  else if c = '<' then "&lt;".toList
  else if c = '>' then "&gt;".toList
  else [c]

def escapeAttributeChar (c : Char) : List Char :=
  if c = '\x22' then "&quot;".toList
  else if c = '\x27' then "&apos;".toList
  else escapeTextChar c

theorem replaceAll_cons (old : Char) (new : String) (rest : List (Char × String))
    (s : List Char) : replaceAll ((old, new) :: rest) s = replaceAll rest (replaceChar old new s) :=
  rfl

theorem replaceAll_eq_flatMap (replacements : List (Char × String)) (s : List Char) :
    replaceAll replacements s = s.flatMap fun c => replaceAll replacements [c] := by
  induction replacements generalizing s with
  | nil => simp [replaceAll]
  | cons first rest ih =>
    obtain ⟨old, new⟩ := first
    simp only [replaceAll_cons]
    rw [ih, replaceChar, List.flatMap_assoc]
    refine congrArg (s.flatMap ·) (funext fun c => ?_)
    rw [← ih, replaceChar, List.flatMap_singleton]

theorem replaceAll_of_notMem {replacements : List (Char × String)} {c : Char}
    (unlisted : c ∉ replacements.map Prod.fst) : replaceAll replacements [c] = [c] := by
  induction replacements with
  | nil => rfl
  | cons first rest ih =>
    obtain ⟨old, new⟩ := first
    simp only [List.map_cons, List.mem_cons, not_or] at unlisted
    have kept : replaceChar old new [c] = [c] := by simp [replaceChar, unlisted.1]
    rw [replaceAll_cons, kept]
    exact ih unlisted.2

-- What a character becomes, since no replacement touches what an earlier one has put in.
theorem replaceAll_text (c : Char) : replaceAll textReplacements [c] = escapeTextChar c := by
  have decided : ∀ c ∈ textReplacements.map Prod.fst,
      replaceAll textReplacements [c] = escapeTextChar c := by
    simp only [textReplacements, List.map_cons, List.map_nil, List.forall_mem_cons]
    exact ⟨rfl, rfl, rfl, List.forall_mem_nil _⟩
  by_cases special : c ∈ textReplacements.map Prod.fst
  · exact decided c special
  · rw [replaceAll_of_notMem special]
    simp only [textReplacements, List.map_cons, List.map_nil, List.mem_cons, List.not_mem_nil,
      or_false, not_or] at special
    simp only [escapeTextChar, special, if_false]

theorem replaceAll_attribute (c : Char) :
    replaceAll attributeReplacements [c] = escapeAttributeChar c := by
  have decided : ∀ c ∈ attributeReplacements.map Prod.fst,
      replaceAll attributeReplacements [c] = escapeAttributeChar c := by
    simp only [attributeReplacements, List.map_cons, List.map_nil, List.forall_mem_cons]
    exact ⟨rfl, rfl, rfl, rfl, rfl, List.forall_mem_nil _⟩
  by_cases special : c ∈ attributeReplacements.map Prod.fst
  · exact decided c special
  · rw [replaceAll_of_notMem special]
    simp only [attributeReplacements, List.map_cons, List.map_nil, List.mem_cons, List.not_mem_nil,
      or_false, not_or] at special
    simp only [escapeAttributeChar, escapeTextChar, special, if_false]

theorem toList_escapeText (s : String) :
    (escapeText s).toList = s.toList.flatMap escapeTextChar := by
  rw [escapeText, String.toList_ofList, replaceAll_eq_flatMap, funext replaceAll_text]

theorem toList_escapeAttribute (s : String) :
    (escapeAttribute s).toList = s.toList.flatMap escapeAttributeChar := by
  rw [escapeAttribute, String.toList_ofList, replaceAll_eq_flatMap, funext replaceAll_attribute]

theorem escapedChar?_text (c : Char) (rest : List Char) :
    escapedChar? textEntities (escapeTextChar c ++ rest) = some (c, rest) := by
  unfold escapeTextChar
  split
  · subst c
    rfl
  split
  · subst c
    rfl
  split
  · subst c
    rfl
  · exact escapedChar?_self _ rest ‹_› ‹_›

theorem escapedChar?_append {entities : List (String × Char)} {s rest : List Char} {c : Char}
    (more : List (String × Char)) (reads : escapedChar? entities s = some (c, rest)) :
    escapedChar? (entities ++ more) s = some (c, rest) := by
  cases s with
  | nil => cases reads
  | cons first s =>
    simp only [escapedChar?, List.findSome?_append] at reads ⊢
    split
    · rename_i isEntity
      rw [if_pos isEntity] at reads
      rw [reads]
      rfl
    · rename_i noEntity
      rwa [if_neg noEntity] at reads

theorem escapedChar?_attribute (c : Char) (rest : List Char) :
    escapedChar? attributeEntities (escapeAttributeChar c ++ rest) = some (c, rest) := by
  unfold escapeAttributeChar
  split
  · subst c
    rfl
  split
  · subst c
    rfl
  · exact escapedChar?_append _ (escapedChar?_text c rest)

theorem head_escapeTextChar (c : Char) :
    ∃ first rest, escapeTextChar c = first :: rest ∧ first ≠ '<' := by
  unfold escapeTextChar
  split
  · exact ⟨_, _, rfl, by decide⟩
  split
  · exact ⟨_, _, rfl, by decide⟩
  split
  · exact ⟨_, _, rfl, by decide⟩
  · exact ⟨c, [], rfl, ‹_›⟩

theorem head_escapeAttributeChar (c : Char) :
    ∃ first rest, escapeAttributeChar c = first :: rest ∧ first ≠ '\x22' := by
  unfold escapeAttributeChar escapeTextChar
  split
  · exact ⟨_, _, rfl, by decide⟩
  split
  · exact ⟨_, _, rfl, by decide⟩
  split
  · exact ⟨_, _, rfl, by decide⟩
  split
  · exact ⟨_, _, rfl, by decide⟩
  split
  · exact ⟨_, _, rfl, by decide⟩
  · exact ⟨c, [], rfl, ‹_›⟩

theorem part?_of_text {c : Char} {s : List Char} (noTag : c ≠ '<') :
    part? (c :: s) =
      (escapedChar? textEntities (c :: s)).map fun (c, rest) => ([.char c], rest) := by
  have other : ('<' == c) = false := by simpa using noTag.symm
  simp [part?, cdataSection?, closing?, opening?, literal, List.isPrefixOf, other]

theorem standsFor_escapeText (text : String) :
    StandsFor (escapeText text).toList (text.toList.map .char) := by
  have each (c : Char) : StandsFor (escapeTextChar c) [.char c] := by
    obtain ⟨first, others, shape, noTag⟩ := head_escapeTextChar c
    refine .of_part (by simp [shape]) fun rest => ?_
    have reads := escapedChar?_text c rest
    rw [shape] at reads ⊢
    rw [List.cons_append, part?_of_text noTag, ← List.cons_append, reads]
    rfl
  have whole := StandsFor.flatMap each text.toList
  rw [← List.map_eq_flatMap] at whole
  rwa [toList_escapeText]

theorem standsFor_plain {s : List Char} (plain : ∀ c ∈ s, c ≠ '&' ∧ c ≠ '<') :
    StandsFor s (s.map .char) := by
  induction s with
  | nil => exact .nil
  | cons c s ih =>
    obtain ⟨noEntity, noTag⟩ := plain c List.mem_cons_self
    have first : StandsFor [c] [.char c] := by
      refine .of_part (by simp) fun rest => ?_
      rw [List.singleton_append, part?_of_text noTag, escapedChar?_self _ _ noEntity noTag]
      rfl
    exact first.append (ih fun d member => plain d (List.mem_cons_of_mem c member))

def IsTagName (name : String) : Prop :=
  name.toList ≠ [] ∧ ∀ c ∈ name.toList, c.isAlphanum = true

instance (name : String) : Decidable (IsTagName name) :=
  decidable_of_iff (name.toList.isEmpty = false ∧ name.toList.all Char.isAlphanum = true)
    (by simp [IsTagName])

theorem name?_append {name : String} (isName : IsTagName name) (rest : List Char)
    (stops : ∀ c ∈ rest.head?, c.isAlphanum = false) :
    name? (name.toList ++ rest) = some (name, rest) := by
  have later : rest.takeWhile Char.isAlphanum = [] ∧ rest.dropWhile Char.isAlphanum = rest := by
    cases rest with
    | nil => simp
    | cons c rest => simp [stops c rfl]
  simp [name?, List.takeWhile_append_of_pos isName.2, List.dropWhile_append_of_pos isName.2, later,
    isName.1]

theorem attribute?_attr {name : String} (isName : IsTagName name) (value : String)
    (rest : List Char) :
    attribute? ((attr name value).toList ++ rest) = some ((name, value), rest) := by
  have shape : (attr name value).toList ++ rest =
      " ".toList ++ (name.toList ++ ("=\x22".toList ++
        (value.toList.flatMap escapeAttributeChar ++ '\x22' :: rest))) := by
    simp [attr, toList_escapeAttribute]
  have ends : literal "\x22" ('\x22' :: rest) = some rest := literal_append "\x22" rest
  have reads : readUntil (literal "\x22") (escapedChar? attributeEntities)
      (value.toList.flatMap escapeAttributeChar ++ '\x22' :: rest) = some (value.toList, rest) := by
    refine readUntil_flatMap ends (fun c _ later => ?_) (fun c _ => escapedChar?_attribute c)
      fun c _ => ?_
    · obtain ⟨first, others, shape, noQuote⟩ := head_escapeAttributeChar c
      simp [shape, literal, noQuote.symm]
    · obtain ⟨first, others, shape, -⟩ := head_escapeAttributeChar c
      simp [shape]
  have named := name?_append isName
    ("=\x22".toList ++ (value.toList.flatMap escapeAttributeChar ++ '\x22' :: rest)) (by simp)
  rw [attribute?, shape]
  simp only [Option.bind_eq_bind, Option.bind_some, literal_append, named, reads,
    String.ofList_toList]

def attributeTexts (attributes : List (String × String)) : List Char :=
  attributes.flatMap fun (name, value) => (attr name value).toList

def tagStart (name : String) (attributes : List (String × String)) : String :=
  "<" ++ name ++ String.ofList (attributeTexts attributes)

section Tags

variable {name : String} {attributes : List (String × String)} (isName : IsTagName name)
  (areNames : ∀ pair ∈ attributes, IsTagName pair.1)

include areNames in
theorem readUntil_attributes {rest : List Char} (ends : beforeTagEnd rest = some rest) :
    readUntil beforeTagEnd attribute? (attributeTexts attributes ++ rest) =
      some (attributes, rest) := by
  refine readUntil_flatMap ends ?_ ?_ ?_
  · simp [attr, beforeTagEnd]
  · intro pair member later
    exact attribute?_attr (areNames pair member) pair.2 later
  · simp [attr]

include isName

theorem part?_tagStart {rest after : List Char} {found : List Token}
    (reads : opening? ((tagStart name attributes).toList ++ rest) = some (found, after)) :
    part? ((tagStart name attributes).toList ++ rest) = some (found, after) := by
  obtain ⟨c, letters, shape⟩ := List.exists_cons_of_ne_nil isName.1
  have letter : c.isAlphanum = true := isName.2 c (by simp [shape])
  have noSection : c ≠ '!' := by
    rintro rfl
    cases letter
  have noClosing : c ≠ '/' := by
    rintro rfl
    cases letter
  rw [part?, reads]
  simp [tagStart, shape, cdataSection?, closing?, literal, noSection.symm, noClosing.symm]

include areNames

theorem opening?_tagStart {rest : List Char} (ends : beforeTagEnd rest = some rest) :
    opening? ((tagStart name attributes).toList ++ rest) =
      ((literal ">" rest).map fun rest => ([.opening name attributes], rest)).or
        ((literal "/>" rest).map fun rest =>
          ([.opening name attributes, .closing name], rest)) := by
  have shape : (tagStart name attributes).toList ++ rest =
      "<".toList ++ (name.toList ++ (attributeTexts attributes ++ rest)) := by
    simp [tagStart]
  have named := name?_append isName (attributeTexts attributes ++ rest) (by
    cases attributes with
    | nil =>
      simp only [beforeTagEnd, Option.ite_none_right_eq_some, and_true] at ends
      rcases ends with stop | stop <;> simp [attributeTexts, stop]
    | cons pair attributes => simp [attributeTexts, attr])
  rw [opening?, shape]
  simp only [Option.bind_eq_bind, Option.bind_some, literal_append, named,
    readUntil_attributes areNames ends]

theorem standsFor_opening :
    StandsFor (tagStart name attributes ++ ">").toList [.opening name attributes] := by
  refine .of_part (by simp) fun rest => ?_
  rw [String.toList_append, List.append_assoc]
  refine part?_tagStart isName ?_
  rw [opening?_tagStart isName areNames (by simp [beforeTagEnd]), literal_append]
  rfl

theorem standsFor_empty :
    StandsFor (tagStart name attributes ++ "/>").toList
      [.opening name attributes, .closing name] := by
  refine .of_part (by simp) fun rest => ?_
  rw [String.toList_append, List.append_assoc]
  refine part?_tagStart isName ?_
  rw [opening?_tagStart isName areNames (by simp [beforeTagEnd]), literal_append]
  simp [literal]

omit areNames

theorem standsFor_closing : StandsFor ("</" ++ name ++ ">").toList [.closing name] := by
  refine .of_part (by simp) fun rest => ?_
  have shape : ("</" ++ name ++ ">").toList ++ rest =
      "</".toList ++ (name.toList ++ (">".toList ++ rest)) := by
    simp
  have named := name?_append isName (">".toList ++ rest) (by simp)
  have closes : closing? ("</".toList ++ (name.toList ++ (">".toList ++ rest))) =
      some ([.closing name], rest) := by
    simp only [closing?, Option.bind_eq_bind, Option.bind_some, literal_append, named]
  rw [shape, part?, closes]
  simp [cdataSection?, literal]

end Tags

def inSection (s : List Char) : Option (List Token) :=
  (readUntil (literal "]]>") anyChar? s).bind fun (text, rest) =>
    (tokens rest).map (text.map .char ++ ·)

theorem inSection_end (rest : List Char) : inSection ("]]>".toList ++ rest) = tokens rest := by
  rw [inSection, readUntil_of_ending (literal_append ..)]
  simp

theorem inSection_cons {c : Char} {s : List Char} (goesOn : literal "]]>" (c :: s) = none) :
    inSection (c :: s) = (inSection s).map (.char c :: ·) := by
  have reads : anyChar? (c :: s) = some (c, s) := rfl
  rw [inSection, readUntil_of_item goesOn reads (by simp), inSection, Option.bind_map,
    Option.map_bind]
  simp [Function.comp_def]

theorem cdataSection?_append (s : List Char) :
    cdataSection? ("<![CDATA[".toList ++ s) =
      (readUntil (literal "]]>") anyChar? s).map fun (text, rest) => (text.map .char, rest) := by
  simp only [cdataSection?, Option.bind_eq_bind, literal_append, Option.bind_some,
    Option.map_eq_bind]
  rfl

theorem tokens_section (s : List Char) : tokens ("<![CDATA[".toList ++ s) = inSection s := by
  have isSection := cdataSection?_append s
  cases reads : readUntil (literal "]]>") anyChar? s with
  | none =>
    have unread : part? ("<![CDATA[".toList ++ s) = none := by
      rw [part?, isSection, reads]
      simp [closing?, opening?, literal, name?, escapedChar?]
    rw [tokens, readUntil_of_none (by simp [atEnd]) unread, inSection, reads]
    rfl
  | some found =>
    have isPart : part? ("<![CDATA[".toList ++ s) = some (found.1.map .char, found.2) := by
      rw [part?, isSection, reads]
      rfl
    have shorter : found.2.length ≤ s.length :=
      readUntil_length (fun t after ends => by
        have lengths := literal_length ends
        omega) reads
    rw [tokens_of_part isPart (by simp; omega), inSection, reads]
    rfl

theorem literal_splitCdata {c : Char} {s : List Char} (rest : List Char)
    (noEnd : ∀ after, c = ']' → s = ']' :: '>' :: after → False) :
    literal "]]>" (c :: splitCdata s ++ ("]]>".toList ++ rest)) = none := by
  fun_cases splitCdata s with
  | case1 => simp [literal]
  | case2 s => simp [literal]
  | case3 d s =>
    -- The mark could only begin with `c`, `d` and the first character behind them.
    fun_cases splitCdata s with
    | case1 => simp [literal]
    | case2 s => simp [literal]
    | case3 e s =>
      refine if_neg ?_
      simp only [String.reduceToList, List.cons_append, List.isPrefixOf_iff_prefix,
        List.cons_prefix_cons, not_and]
      rintro rfl rfl rfl
      exact absurd rfl (noEnd s rfl)

theorem inSection_splitCdata (s rest : List Char) :
    inSection (splitCdata s ++ ("]]>".toList ++ rest)) = (tokens rest).map (s.map .char ++ ·) := by
  fun_induction splitCdata s with
  | case1 => simpa using inSection_end rest
  | case2 s ih =>
    have shape : "]]]]><![CDATA[>".toList ++ splitCdata s ++ ("]]>".toList ++ rest) =
        ']' :: ']' :: ("]]>".toList ++ ("<![CDATA[".toList ++
          ('>' :: (splitCdata s ++ ("]]>".toList ++ rest))))) := by
      simp
    rw [shape, inSection_cons (by simp [literal]), inSection_cons (by simp [literal]),
      inSection_end, tokens_section, inSection_cons (by simp [literal]), ih]
    simp [Function.comp_def]
  | case3 c s noEnd ih =>
    rw [List.cons_append, inSection_cons, ih]
    · simp [Function.comp_def]
    · exact literal_splitCdata rest noEnd

theorem standsFor_cdata (text : String) :
    StandsFor (cdata text).toList (text.toList.map .char) := by
  intro rest
  have shape : (cdata text).toList ++ rest =
      "<![CDATA[".toList ++ (splitCdata text.toList ++ ("]]>".toList ++ rest)) := by
    simp [cdata]
  rw [shape, tokens_section, inSection_splitCdata]

mutual

inductive Node where
  | char (c : Char)
  | element (element : Element)

structure Element where
  name : String
  attributes : List (String × String)
  children : List Node

end

mutual

def Node.tokens : Node → List Token
  | .char c => [.char c]
  | .element e => Element.tokens e

def Element.tokens : Element → List Token
  | ⟨name, attributes, children⟩ =>
    .opening name attributes :: nodeTokens children ++ [.closing name]

def nodeTokens : List Node → List Token
  | [] => []
  | node :: rest => node.tokens ++ nodeTokens rest

end

structure OpenElement where
  before : List Node
  name : String
  attributes : List (String × String)

-- Pairs the tags. `done` are the nodes read so far in the innermost open element.
def nodesFrom (opened : List OpenElement) (done : List Node) : List Token → Option (List Node)
  | [] => if opened.isEmpty then some done else none
  | .char c :: rest => nodesFrom opened (done ++ [.char c]) rest
  | .opening name attributes :: rest => nodesFrom (⟨done, name, attributes⟩ :: opened) [] rest
  | .closing name :: rest =>
    match opened with
    | [] => none
    | top :: outer =>
      if top.name = name then
        nodesFrom outer (top.before ++ [.element ⟨name, top.attributes, done⟩]) rest
      else none

theorem nodesFrom_nodes (nodes : List Node) (opened : List OpenElement) (done : List Node)
    (rest : List Token) :
    nodesFrom opened done (nodeTokens nodes ++ rest) = nodesFrom opened (done ++ nodes) rest := by
  match nodes with
  | [] => simp [nodeTokens]
  | .char c :: nodes =>
    have others := nodesFrom_nodes nodes opened (done ++ [.char c]) rest
    simpa [nodeTokens, Node.tokens, nodesFrom] using others
  | .element ⟨name, attributes, children⟩ :: nodes =>
    have inner := nodesFrom_nodes children (⟨done, name, attributes⟩ :: opened) []
      (.closing name :: (nodeTokens nodes ++ rest))
    have others := nodesFrom_nodes nodes opened (done ++ [.element ⟨name, attributes, children⟩])
      rest
    simp only [nodeTokens, Node.tokens, Element.tokens, List.cons_append, List.append_assoc,
      nodesFrom, List.nil_append, inner, if_true, others]
termination_by sizeOf nodes

def withoutDeclaration? (s : List Char) : Option (List Char) := do
  let rest ← literal "<?xml" s
  let (_, rest) ← readUntil (literal "?>") anyChar? rest
  some rest

def readMarkup? (s : List Char) : Option (List Node) := do
  let rest ← withoutDeclaration? s
  let found ← tokens rest
  nodesFrom [] [] found

theorem readMarkup?_eq_some {s rest : List Char} {nodes : List Node}
    (declared : withoutDeclaration? s = some rest) (stands : StandsFor rest (nodeTokens nodes)) :
    readMarkup? s = some nodes := by
  have paired := nodesFrom_nodes nodes [] [] []
  simp only [List.append_nil, List.nil_append] at paired
  simp only [readMarkup?, declared, Option.bind_eq_bind, Option.bind_some, stands.tokens_eq, paired]
  rfl

end StructuredText.PlcOpen
