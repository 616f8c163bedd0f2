import Mathlib.Data.List.Forall2
import StructuredText.Comment

set_option autoImplicit false

namespace StructuredText

def bytes (s : List Char) : List UInt8 :=
  s.flatMap String.utf8EncodeChar

inductive ByteKind where
  | code
  -- The first byte of a comment.
  | start
  -- Any other byte of the marks of a comment.
  | mark
  | inner
  deriving DecidableEq

inductive Mode where
  | code
  | string (quote : UInt8)
  -- The next byte is taken by a dollar sign.
  | escaped (quote : UInt8)
  | lineMark
  | line
  | opening (comment : OpenComment)
  | block (comment : OpenComment)
  | closing
  deriving DecidableEq

namespace Mode

def ofCarried : Option OpenComment → Mode
  | none => code
  | some comment => block comment

def carried : Mode → Option OpenComment
  | opening comment | block comment => some comment
  | code | string _ | escaped _ | lineMark | line | closing => none

def next (number : Nat) (byte : UInt8) (ahead : Option UInt8) : Mode → ByteKind × Mode
  | code =>
    if byte = '\x27'.toUInt8 ∨ byte = '\x22'.toUInt8 then (.code, string byte)
    else if byte = '/'.toUInt8 ∧ ahead = some '/'.toUInt8 then (.start, lineMark)
    else if byte = '('.toUInt8 ∧ ahead = some '*'.toUInt8 then
      (.start, opening ⟨.paren, number⟩)
    else if byte = '/'.toUInt8 ∧ ahead = some '*'.toUInt8 then
      (.start, opening ⟨.slash, number⟩)
    else (.code, code)
  | string quote =>
    if byte = '$'.toUInt8 then (.code, escaped quote)
    else if byte = quote then (.code, code)
    else (.code, string quote)
  | escaped quote => (.code, string quote)
  | lineMark => (.mark, line)
  | line => (.inner, line)
  | opening comment => (.mark, block comment)
  | block comment =>
    let last :=
      match comment.style with
      | .paren => ')'.toUInt8
      | .slash => '/'.toUInt8
    if byte = '*'.toUInt8 ∧ ahead = some last then (.mark, closing) else (.inner, block comment)
  | closing => (.mark, code)

def read (number : Nat) : Mode → List UInt8 → List (UInt8 × ByteKind) × Option OpenComment
  | mode, [] => ([], mode.carried)
  | mode, byte :: rest =>
    let (kind, after) := mode.next number byte rest.head?
    let (others, left) := after.read number rest
    ((byte, kind) :: others, left)

theorem map_fst_read (number : Nat) (mode : Mode) (line : List UInt8) :
    (mode.read number line).1.map Prod.fst = line := by
  induction line generalizing mode with
  | nil => rfl
  | cons byte rest ih => simp [read, ih]

end Mode

structure MarkedLine where
  inComment : Bool
  marked : List (UInt8 × ByteKind)

def innerBytes (marked : List (UInt8 × ByteKind)) : List UInt8 :=
  (marked.takeWhile fun p => p.2 = .inner).map Prod.fst

def notesFrom (offset : Nat) : List (UInt8 × ByteKind) → List (Nat × List UInt8)
  | [] => []
  | (_, kind) :: rest =>
    if kind = .start then (offset, innerBytes rest.tail) :: notesFrom (offset + 1) rest
    else notesFrom (offset + 1) rest

def shown : UInt8 × ByteKind → UInt8
  | (byte, kind) => if kind = .code then byte else ' '.toUInt8

namespace MarkedLine

def bytes (line : MarkedLine) : List UInt8 :=
  line.marked.map Prod.fst

def blanked (line : MarkedLine) : List UInt8 :=
  line.marked.map shown

def notes (line : MarkedLine) : List (Nat × List UInt8) :=
  (if line.inComment then [(0, innerBytes line.marked)] else []) ++ notesFrom 0 line.marked

end MarkedLine

def readLines (carried : Option OpenComment) :
    List (List UInt8 × Nat) → List MarkedLine × Option OpenComment
  | [] => ([], carried)
  | (line, number) :: rest =>
    let (marked, left) := (Mode.ofCarried carried).read number line
    let (others, last) := readLines left rest
    (⟨carried.isSome, marked⟩ :: others, last)

section Encoding

@[simp] theorem bytes_nil : bytes [] = [] := rfl

@[simp] theorem bytes_cons (c : Char) (s : List Char) :
    bytes (c :: s) = String.utf8EncodeChar c ++ bytes s := rfl

@[simp] theorem bytes_append (s t : List Char) : bytes (s ++ t) = bytes s ++ bytes t :=
  List.flatMap_append

theorem length_bytes (s : List Char) : (bytes s).length = width s := by
  induction s with
  | nil => rfl
  | cons c s ih => simp [ih, String.length_utf8EncodeChar]

theorem encode_of_ascii {c : Char} (ascii : c.toNat < 128) :
    String.utf8EncodeChar c = [c.toUInt8] := by
  have small : c.val.toNat ≤ 127 := Nat.le_of_lt_succ ascii
  simp only [String.utf8EncodeChar, if_pos small]
  rfl

theorem wide_of_mem_encode {c : Char} (wide : ¬ c.toNat < 128) :
    ∀ byte ∈ String.utf8EncodeChar c, 128 ≤ byte.toNat := by
  have large : ¬ c.val.toNat ≤ 127 := fun small => wide (Nat.lt_succ_of_le small)
  simp only [String.utf8EncodeChar, if_neg large]
  intro byte member
  split at member
  · simp only [List.mem_cons, List.not_mem_nil, or_false] at member
    rcases member with rfl | rfl <;> simp only [UInt8.toNat_ofNat'] <;> omega
  · split at member <;> simp only [List.mem_cons, List.not_mem_nil, or_false] at member
    · rcases member with rfl | rfl | rfl <;> simp only [UInt8.toNat_ofNat'] <;> omega
    · rcases member with rfl | rfl | rfl | rfl <;> simp only [UInt8.toNat_ofNat'] <;> omega

theorem toNat_toUInt8 {c : Char} (ascii : c.toNat < 128) : c.toUInt8.toNat = c.toNat := by
  have small : c.val.toNat < 128 := ascii
  simp only [Char.toUInt8, UInt32.toNat_toUInt8, Char.toNat]
  omega

theorem toUInt8_eq_iff {c d : Char} (ascii : c.toNat < 128) (also : d.toNat < 128) :
    c.toUInt8 = d.toUInt8 ↔ c = d := by
  refine ⟨fun same => ?_, congrArg Char.toUInt8⟩
  have codes := congrArg UInt8.toNat same
  rw [toNat_toUInt8 ascii, toNat_toUInt8 also] at codes
  exact Char.toNat_inj.mp codes

theorem ne_of_wide {byte : UInt8} {c : Char} (wide : 128 ≤ byte.toNat) (ascii : c.toNat < 128) :
    byte ≠ c.toUInt8 := by
  rintro rfl
  rw [toNat_toUInt8 ascii] at wide
  omega

theorem head_bytes {c : Char} (ascii : c.toNat < 128) (s : List Char) :
    (bytes s).head? = some c.toUInt8 ↔ s.head? = some c := by
  cases s with
  | nil => simp
  | cons d s =>
    by_cases also : d.toNat < 128
    · simp [encode_of_ascii also, toUInt8_eq_iff also ascii]
    · obtain ⟨byte, others, encoded⟩ :=
        List.exists_cons_of_ne_nil (@String.utf8EncodeChar_ne_nil d)
      have wide := wide_of_mem_encode also byte (by simp [encoded])
      have other : d ≠ c := fun same => also (same ▸ ascii)
      simp [encoded, ne_of_wide wide ascii, other]

end Encoding

def tag (kind : ByteKind) (s : List Char) : List (UInt8 × ByteKind) :=
  (bytes s).map (·, kind)

@[simp] theorem tag_nil (kind : ByteKind) : tag kind [] = [] := rfl

theorem tag_cons (kind : ByteKind) (c : Char) (s : List Char) :
    tag kind (c :: s) = (String.utf8EncodeChar c).map (·, kind) ++ tag kind s :=
  List.map_append

theorem map_fst_tag (kind : ByteKind) (s : List Char) : (tag kind s).map Prod.fst = bytes s := by
  simp [tag, Function.comp_def]

theorem tag_ascii (kind : ByteKind) {c : Char} (ascii : c.toNat < 128) :
    tag kind [c] = [(c.toUInt8, kind)] := by
  simp [tag, encode_of_ascii ascii]

theorem length_tag (kind : ByteKind) (s : List Char) : (tag kind s).length = width s := by
  simp [tag, length_bytes]

theorem kind_of_mem_tag {kind : ByteKind} {s : List Char} {marked : UInt8 × ByteKind}
    (member : marked ∈ tag kind s) : marked.2 = kind := by
  obtain ⟨byte, -, rfl⟩ := List.mem_map.mp member
  rfl

@[simp] theorem tag_append (kind : ByteKind) (s t : List Char) :
    tag kind (s ++ t) = tag kind s ++ tag kind t := by
  simp [tag]

def behind (marked : List (UInt8 × ByteKind))
    (rest : List (UInt8 × ByteKind) × Option OpenComment) :
    List (UInt8 × ByteKind) × Option OpenComment :=
  (marked ++ rest.1, rest.2)

@[simp] theorem behind_behind (first second : List (UInt8 × ByteKind))
    (rest : List (UInt8 × ByteKind) × Option OpenComment) :
    behind first (behind second rest) = behind (first ++ second) rest := by
  simp [behind]

namespace Mode

variable (number : Nat)

theorem read_ascii (mode : Mode) {c : Char} (ascii : c.toNat < 128) (s : List Char) :
    mode.read number (bytes (c :: s)) =
      behind (tag (mode.next number c.toUInt8 (bytes s).head?).1 [c])
        ((mode.next number c.toUInt8 (bytes s).head?).2.read number (bytes s)) := by
  simp [encode_of_ascii ascii, read, behind, tag]

theorem read_steady {mode : Mode} {kind : ByteKind} {line : List UInt8}
    (steady : ∀ byte ∈ line, ∀ ahead, mode.next number byte ahead = (kind, mode))
    (rest : List UInt8) :
    mode.read number (line ++ rest) =
      behind (line.map (·, kind)) (mode.read number rest) := by
  induction line with
  | nil => rfl
  | cons byte line ih =>
    have others := ih fun other member => steady other (List.mem_cons_of_mem byte member)
    have first := steady byte List.mem_cons_self
    simp [read, first, others, behind]

theorem read_line (s : List Char) : line.read number (bytes s) = (tag .inner s, none) := by
  have steady : ∀ byte ∈ bytes s, ∀ ahead, line.next number byte ahead = (.inner, line) :=
    fun _ _ _ => rfl
  simpa [behind, read, carried, tag] using read_steady number steady []

theorem next_dollar (quote : UInt8) (ahead : Option UInt8) :
    (string quote).next number '$'.toUInt8 ahead = (.code, escaped quote) := by
  simp [next]

section Strings

variable {close : Char} (ascii : close.toNat < 128)

include ascii

theorem next_string_of_wide {byte : UInt8} (wide : 128 ≤ byte.toNat) (ahead : Option UInt8) :
    (string close.toUInt8).next number byte ahead = (.code, string close.toUInt8) := by
  have noDollar : byte ≠ '$'.toUInt8 := ne_of_wide wide (by decide)
  simp [next, noDollar, ne_of_wide wide ascii]

theorem read_string_cons {c : Char} (noDollar : c ≠ '$') (other : c ≠ close) (s : List Char) :
    (string close.toUInt8).read number (bytes (c :: s)) =
      behind (tag .code [c]) ((string close.toUInt8).read number (bytes s)) := by
  by_cases also : c.toNat < 128
  · have step : (string close.toUInt8).next number c.toUInt8 (bytes s).head? =
        (.code, string close.toUInt8) := by
      have noDollar : c.toUInt8 ≠ '$'.toUInt8 :=
        fun same => noDollar ((toUInt8_eq_iff also (by decide)).mp same)
      have other : c.toUInt8 ≠ close.toUInt8 :=
        fun same => other ((toUInt8_eq_iff also ascii).mp same)
      simp [next, noDollar, other]
    rw [read_ascii number _ also, step]
  · have steady := fun byte member =>
      next_string_of_wide number ascii (wide_of_mem_encode also byte member)
    rw [bytes_cons, read_steady number steady, tag_cons, tag_nil, List.append_nil]

-- A dollar sign takes one byte. The others of a wide character do not end the string.
theorem read_escaped (c : Char) (s : List Char) :
    (escaped close.toUInt8).read number (bytes (c :: s)) =
      behind (tag .code [c]) ((string close.toUInt8).read number (bytes s)) := by
  by_cases also : c.toNat < 128
  · exact read_ascii number _ also s
  · obtain ⟨byte, others, encoded⟩ :=
      List.exists_cons_of_ne_nil (@String.utf8EncodeChar_ne_nil c)
    have steady : ∀ other ∈ others, ∀ ahead,
        (string close.toUInt8).next number other ahead = (.code, string close.toUInt8) :=
      fun other member => next_string_of_wide number ascii
        (wide_of_mem_encode also other (by simp [encoded, member]))
    have rest := read_steady number steady (bytes s)
    simp [encoded, read, next, rest, behind, tag]

theorem read_string (noDollar : close ≠ '$') (s : List Char) :
    (string close.toUInt8).read number (bytes s) =
      behind (tag .code (splitQuoted close s).1)
        (code.read number (bytes (splitQuoted close s).2)) := by
  fun_induction splitQuoted close s with
  | case1 => rfl
  | case2 c rest quoted after split ih =>
    rw [split] at ih
    rw [read_ascii number _ (by decide), next_dollar, read_escaped number ascii, ih]
    simp [← tag_append]
  | case3 rest notEscaped =>
    have closes : (string close.toUInt8).next number close.toUInt8 (bytes rest).head? =
        (.code, code) := by
      have other : close.toUInt8 ≠ '$'.toUInt8 :=
        fun same => noDollar ((toUInt8_eq_iff ascii (by decide)).mp same)
      simp [next, other]
    rw [read_ascii number _ ascii, closes]
  | case4 c rest notEscaped other quoted after split ih =>
    rw [split] at ih
    by_cases escape : c = '$'
    · cases rest with
      | nil =>
        cases split
        rw [escape, read_ascii number _ (by decide), next_dollar]
        rfl
      | cons d rest => exact absurd rfl (notEscaped d rest escape)
    · rw [read_string_cons number ascii escape other, ih]
      simp [← tag_append]

end Strings

section Blocks

variable (comment : OpenComment)

theorem ascii_of_closer (style : CommentStyle) : style.outer.2.toNat < 128 := by
  cases style <;> decide

theorem next_block (byte : UInt8) (ahead : Option UInt8) :
    (block comment).next number byte ahead =
      if byte = '*'.toUInt8 ∧ ahead = some comment.style.outer.2.toUInt8 then (.mark, closing)
      else (.inner, block comment) := by
  obtain ⟨style, line⟩ := comment
  cases style <;> rfl

theorem read_block_cons {c : Char} {s : List Char}
    (goesOn : ¬(c = '*' ∧ s.head? = some comment.style.outer.2)) :
    (block comment).read number (bytes (c :: s)) =
      behind (tag .inner [c]) ((block comment).read number (bytes s)) := by
  by_cases ascii : c.toNat < 128
  · have step : (block comment).next number c.toUInt8 (bytes s).head? =
        (.inner, block comment) := by
      rw [← toUInt8_eq_iff ascii (by decide), ← head_bytes (ascii_of_closer _)] at goesOn
      rw [next_block, if_neg goesOn]
    rw [read_ascii number _ ascii, step]
  · have steady : ∀ byte ∈ String.utf8EncodeChar c, ∀ ahead,
        (block comment).next number byte ahead = (.inner, block comment) := by
      intro byte member ahead
      have noStar : byte ≠ '*'.toUInt8 :=
        ne_of_wide (wide_of_mem_encode ascii byte member) (by decide)
      rw [next_block, if_neg fun closes => noStar closes.1]
    rw [bytes_cons, read_steady number steady, tag_cons, tag_nil, List.append_nil]

theorem read_closer (s : List Char) :
    (block comment).read number (bytes (comment.style.closer ++ s)) =
      behind (tag .mark comment.style.closer) (code.read number (bytes s)) := by
  have ascii := ascii_of_closer comment.style
  have ahead : (bytes (comment.style.outer.2 :: s)).head? =
      some comment.style.outer.2.toUInt8 := (head_bytes ascii _).mpr rfl
  have closes : (block comment).next number '*'.toUInt8 (some comment.style.outer.2.toUInt8) =
      (.mark, closing) := by
    simp [next_block]
  rw [CommentStyle.closer, List.cons_append, List.singleton_append,
    read_ascii number _ (by decide), ahead, closes, read_ascii number _ ascii, behind_behind]
  rfl

theorem read_block (s : List Char) :
    (block comment).read number (bytes s) =
      match comment.style.splitAtCloser s with
      | some (note, rest) =>
        behind (tag .inner note ++ tag .mark comment.style.closer)
          (code.read number (bytes rest))
      | none => (tag .inner s, some comment) := by
  simp only [CommentStyle.splitAtCloser]
  fun_induction splitAtPair '*' comment.style.outer.2 s with
  | case1 x y rest closes =>
    obtain ⟨rfl, rfl⟩ := closes
    exact read_closer number comment rest
  | case2 x y rest other ih =>
    have goesOn : ¬(x = '*' ∧ (y :: rest).head? = some comment.style.outer.2) := by
      simpa using other
    rw [read_block_cons number comment goesOn, ih]
    cases splitAtPair '*' comment.style.outer.2 (y :: rest) with
    | none => simp [behind, tag]
    | some parts => simp [← tag_append, ← List.append_assoc]
  | case3 s short =>
    cases s with
    | nil => rfl
    | cons x s =>
      cases s with
      | nil =>
        rw [read_block_cons number comment (by simp)]
        simp [read, carried, behind]
      | cons y rest => exact absurd rfl (short x y rest)

end Blocks

end Mode

end StructuredText
