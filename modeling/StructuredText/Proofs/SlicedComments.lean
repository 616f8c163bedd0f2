import StructuredText.Proofs.Slices
import StructuredText.Proofs.StrippedLines

set_option autoImplicit false

namespace StructuredText

namespace CommentStyle

@[simp] theorem width_opener (style : CommentStyle) : width style.opener = 2 := by
  cases style <;> rfl

@[simp] theorem width_closer (style : CommentStyle) : width style.closer = 2 := by
  cases style <;> rfl

theorem offsetOf?_closer (style : CommentStyle) (s : List Char) :
    offsetOf? style.closer s = (style.splitAtCloser s).map fun parts => width parts.1 :=
  offsetOf?_pair ..

end CommentStyle

namespace StrippedLine

def addCode (read : StrippedLine) (kept : List Char) : StrippedLine :=
  { read with code := read.code ++ kept }

def addComment (read : StrippedLine) (start size : Nat) (note : List Char) : StrippedLine where
  code := read.code ++ List.replicate size ' '
  comments := read.comments ++ [⟨start, String.ofList (trim note)⟩]

def readOn (number : Nat) (read : StrippedLine) (offset : Nat) (parts : List Segment) :
    StrippedLine × Option OpenComment :=
  (⟨read.code ++ parts.flatMap Segment.blanked, read.comments ++ commentsFrom offset parts⟩,
    (parts.getLast?.bind Segment.stillOpen?).map fun style => ⟨style, number⟩)

theorem addCode_nil (read : StrippedLine) : read.addCode [] = read := by
  simp [addCode]

theorem addCode_addCode (read : StrippedLine) (s t : List Char) :
    (read.addCode s).addCode t = read.addCode (s ++ t) := by
  simp [addCode]

section ReadOn

variable (number : Nat) (read : StrippedLine) (offset : Nat)

theorem readOn_nil : read.readOn number offset [] = (read, none) := by
  simp [readOn, commentsFrom]

theorem readOn_code (text : List Char) (parts : List Segment) :
    read.readOn number offset (.code text :: parts) =
      (read.addCode text).readOn number (offset + width text) parts := by
  have stillOpen := @stillOpen_cons (.code text) rfl parts
  simp [readOn, addCode, commentsFrom, Segment.blanked, stillOpen]

theorem readOn_closed (text note : List Char) (parts : List Segment) :
    read.readOn number offset (.comment text note none :: parts) =
      (read.addComment offset (width text) note).readOn number (offset + width text) parts := by
  have stillOpen := @stillOpen_cons (.comment text note none) rfl parts
  simp [readOn, addComment, commentsFrom, Segment.blanked, stillOpen]

theorem readOn_last (text note : List Char) (stillOpen : Option CommentStyle) :
    read.readOn number offset [.comment text note stillOpen] =
      (read.addComment offset (width text) note,
        stillOpen.map fun style => ⟨style, number⟩) := by
  simp [readOn, addComment, commentsFrom, Segment.blanked, Segment.stillOpen?]

end ReadOn

end StrippedLine

inductive OpeningMark where
  | string (quote : UInt8)
  | line
  | block (style : CommentStyle)
  deriving DecidableEq

namespace OpeningMark

def read? (byte : UInt8) (ahead : List UInt8) : Option OpeningMark :=
  if byte = '\x27'.toUInt8 ∨ byte = '\x22'.toUInt8 then some (string byte)
  else if (bytes ['/', '/']).isPrefixOf ahead then some line
  else
    ([.paren, .slash].find? fun style : CommentStyle =>
      (bytes style.opener).isPrefixOf ahead).map block

theorem isPrefixOf_pair {a b : Char} (ascii : a.toNat < 128) (also : b.toNat < 128) (c : Char)
    (s : List Char) :
    (bytes [a, b]).isPrefixOf (bytes (c :: s)) = true ↔ c = a ∧ s.head? = some b := by
  have pair : bytes [a, b] = [a.toUInt8, b.toUInt8] := by
    simp [encode_of_ascii ascii, encode_of_ascii also]
  have firsts (line : List UInt8) : [a.toUInt8, b.toUInt8].isPrefixOf line = true ↔
      line.head? = some a.toUInt8 ∧ line.tail.head? = some b.toUInt8 := by
    rcases line with _ | ⟨one, _ | ⟨other, rest⟩⟩
    · simp
    · simp
    · simp only [List.isPrefixOf, Bool.and_true, Bool.and_eq_true, beq_iff_eq, List.head?_cons,
        List.tail_cons, Option.some.injEq]
      exact and_congr eq_comm eq_comm
  rw [pair, firsts, head_bytes ascii, List.head?_cons, Option.some.injEq]
  refine and_congr_right ?_
  rintro rfl
  rw [bytes_cons, encode_of_ascii ascii]
  exact head_bytes also s

theorem read?_wide {byte : UInt8} (wide : 128 ≤ byte.toNat) (rest : List UInt8) :
    read? byte (byte :: rest) = none := by
  have differs {c : Char} (small : c.toNat < 128) : byte ≠ c.toUInt8 := ne_of_wide wide small
  have noPrefix {a b : Char} (ascii : a.toNat < 128) :
      ¬(bytes [a, b]).isPrefixOf (byte :: rest) = true := by
    simp [encode_of_ascii ascii, Ne.symm (differs ascii)]
  have noQuote : ¬(byte = '\x27'.toUInt8 ∨ byte = '\x22'.toUInt8) := by
    simp [differs (c := '\x27') (by decide), differs (c := '\x22') (by decide)]
  rw [read?, if_neg noQuote, if_neg (noPrefix (by decide)), List.find?_eq_none.mpr]
  · rfl
  · rintro (_ | _) - <;> exact noPrefix (by decide)

theorem read?_string {c close : Char} (opens : stringClose? c = some close) (s : List Char) :
    c.toNat < 128 ∧ read? c.toUInt8 (bytes (c :: s)) = some (string close.toUInt8) := by
  simp only [stringClose?] at opens
  split at opens
  · rename_i isQuote
    cases opens
    rcases isQuote with rfl | rfl
    · exact ⟨by decide, rfl⟩
    · exact ⟨by decide, rfl⟩
  · cases opens

theorem read?_line (note : List Char) :
    read? '/'.toUInt8 (bytes ('/' :: '/' :: note)) = some line := by
  have begins := (isPrefixOf_pair (by decide) (by decide) '/' ('/' :: note)).mpr ⟨rfl, rfl⟩
  rw [read?, if_neg (by decide), if_pos begins]

theorem read?_block (style : CommentStyle) (s : List Char) :
    read? style.outer.1.toUInt8 (bytes (style.opener ++ s)) = some (block style) := by
  have begins {a b : Char} (ascii : a.toNat < 128) (also : b.toNat < 128) :
      (bytes [a, b]).isPrefixOf (bytes (style.opener ++ s)) = true ↔
        style.outer.1 = a ∧ '*' = b := by
    have split : style.opener ++ s = style.outer.1 :: '*' :: s := rfl
    rw [split, isPrefixOf_pair ascii also]
    simp
  have noLine : ¬(bytes ['/', '/']).isPrefixOf (bytes (style.opener ++ s)) = true := by
    rw [begins (by decide) (by decide)]
    exact fun both => absurd both.2 (by decide)
  have isStyle (other : CommentStyle) :
      (bytes other.opener).isPrefixOf (bytes (style.opener ++ s)) = decide (style = other) := by
    rw [Bool.eq_iff_iff, CommentStyle.opener, begins (by cases other <;> decide) (by decide)]
    cases style <;> cases other <;> decide
  rw [read?, if_neg (by cases style <;> decide), if_neg noLine]
  simp only [isStyle]
  cases style <;> rfl

theorem read?_apart {c : Char} {s : List Char} (ascii : c.toNat < 128)
    (unquoted : stringClose? c = none) (apart : ∀ d ∈ s.head?, Apart c d) :
    read? c.toUInt8 (bytes (c :: s)) = none := by
  have noQuote : ¬(c.toUInt8 = '\x27'.toUInt8 ∨ c.toUInt8 = '\x22'.toUInt8) := by
    rw [toUInt8_eq_iff ascii (by decide), toUInt8_eq_iff ascii (by decide)]
    intro isQuote
    simp [stringClose?, isQuote] at unquoted
  have noPrefix {a b : Char} (small : a.toNat < 128) (also : b.toNat < 128)
      (touches : ¬(c = a ∧ s.head? = some b)) :
      ¬(bytes [a, b]).isPrefixOf (bytes (c :: s)) = true := by
    rwa [isPrefixOf_pair small also]
  rw [read?, if_neg noQuote, if_neg, List.find?_eq_none.mpr]
  · rfl
  · rintro (_ | _) -
    · exact noPrefix (by decide) (by decide) fun both => (apart _ both.2).2.1 ⟨both.1, rfl⟩
    · exact noPrefix (by decide) (by decide) fun both => (apart _ both.2).2.2 ⟨both.1, rfl⟩
  · exact noPrefix (by decide) (by decide) fun both => (apart _ both.2).1 ⟨both.1, rfl⟩

end OpeningMark

namespace Bytewise

-- Goes over a line from a byte that is or is not inside a string. The code from `keptFrom` on has
-- not been taken over yet.
def scan? (line : List Char) (number keptFrom : Nat) (read : StrippedLine) (quote : Option UInt8)
    (pos : Nat) : Option (StrippedLine × Option OpenComment) :=
  if inside : pos < (bytes line).length then
    match quote with
    | some close =>
      scan? line number keptFrom read (quotedStep close (bytes line)[pos]).2
        (pos + (quotedStep close (bytes line)[pos]).1)
    | none => do
      let ahead ← bytesFrom? (bytes line) pos
      match OpeningMark.read? (bytes line)[pos] ahead with
      | none => scan? line number keptFrom read none (pos + 1)
      | some (.string quote) => scan? line number keptFrom read (some quote) (pos + 1)
      | some .line =>
        let kept ← slice? line keptFrom pos
        let note ← slice? line (pos + 2) (width line)
        let size ← difference? (width line) pos
        some ((read.addCode kept).addComment pos size note, none)
      | some (.block style) =>
        let kept ← slice? line keptFrom pos
        let start := pos + width style.opener
        let inner ← slice? line start (width line)
        match offsetOf? style.closer inner with
        | some found =>
          let note ← slice? line start (start + found)
          let stop := start + found + width style.closer
          let size ← difference? stop pos
          scan? line number stop ((read.addCode kept).addComment pos size note) none stop
        | none =>
          let size ← difference? (width line) pos
          some ((read.addCode kept).addComment pos size inner, some ⟨style, number⟩)
  else do
    let kept ← slice? line (min keptFrom (width line)) (width line)
    some (read.addCode kept, none)
termination_by (bytes line).length - pos
decreasing_by
  · have moves := quotedStep_pos close (bytes line)[pos]
    omega
  · omega
  · omega
  · have moves := style.width_closer
    omega

section Scan

variable {line : List Char} (number keptFrom : Nat) (read : StrippedLine)

theorem readsQuotes_scan? (line : List Char) :
    ReadsQuotes line (scan? line number keptFrom read) where
  quoted close pos inside := by
    conv_lhs => rw [scan?, dif_pos inside]
  wide pos inside isWide := by
    have ahead : bytesFrom? (bytes line) pos =
        some ((bytes line)[pos] :: (bytes line).drop (pos + 1)) := by
      rw [bytesFrom?, if_pos (Nat.le_of_lt inside), List.drop_eq_getElem_cons inside]
    conv_lhs => rw [scan?, dif_pos inside]
    simp only [ahead, Option.bind_eq_bind, Option.bind_some, OpeningMark.read?_wide isWide]
  ends quote other pos past outside also := by
    rw [scan?, dif_neg (Nat.not_lt.mpr outside), scan?, dif_neg (Nat.not_lt.mpr also)]

theorem scan?_plain {before s : List Char} {c : Char} (whole : line = before ++ c :: s)
    (unquoted : stringClose? c = none) (apart : ∀ d ∈ s.head?, Apart c d) :
    scan? line number keptFrom read none (width before) =
      scan? line number keptFrom read none (width (before ++ [c])) := by
  by_cases ascii : c.toNat < 128
  · have ahead : bytesFrom? (bytes line) (width before) = some (bytes (c :: s)) := by
      rw [whole, bytesFrom?_width]
    conv_lhs => rw [scan?, dif_pos (inside_of_split whole)]
    simp only [ahead, getElem_ascii whole ascii, Option.bind_eq_bind, Option.bind_some,
      OpeningMark.read?_apart ascii unquoted apart, width_concat_ascii ascii]
  · exact (readsQuotes_scan? number keptFrom read line).across none nofun whole ascii
      (Nat.le_refl _) (by simp)

theorem scan?_string {before s : List Char} {c close : Char} (whole : line = before ++ c :: s)
    (opens : stringClose? c = some close) :
    scan? line number keptFrom read none (width before) =
      scan? line number keptFrom read none (width (before ++ c :: (splitQuoted close s).1)) := by
  obtain ⟨ascii, mark⟩ := OpeningMark.read?_string opens s
  have ahead : bytesFrom? (bytes line) (width before) = some (bytes (c :: s)) := by
    rw [whole, bytesFrom?_width]
  have small := ascii_of_quoteClose? (quoteClose?_of_string opens)
  have comesOut := (readsQuotes_scan? number keptFrom read line).splitQuoted small
    (quoteClose?_ne_escape (quoteClose?_of_string opens))
    (show line = (before ++ [c]) ++ s by simp [whole])
  rw [List.append_assoc] at comesOut
  conv_lhs => rw [scan?, dif_pos (inside_of_split whole)]
  simp only [ahead, getElem_ascii whole ascii, Option.bind_eq_bind, Option.bind_some, mark]
  rw [← width_concat_ascii ascii, comesOut]
  rfl

variable {front kept : List Char}

theorem scan?_lineComment {note : List Char} (whole : line = front ++ kept ++ '/' :: '/' :: note) :
    scan? line number (width front) read none (width (front ++ kept)) =
      some
        ((read.addCode kept).addComment (width (front ++ kept)) (width ('/' :: '/' :: note)) note,
          none) := by
  have ahead : bytesFrom? (bytes line) (width (front ++ kept)) =
      some (bytes ('/' :: '/' :: note)) := by
    rw [whole, bytesFrom?_width]
  have isKept : slice? line (width front) (width (front ++ kept)) = some kept := by
    rw [whole, slice?_middle]
  have isNote : slice? line (width (front ++ kept) + 2) (width line) = some note := by
    have starts : width (front ++ kept) + 2 = width (front ++ kept ++ ['/', '/']) := by
      rw [width_append _ ['/', '/']]
      rfl
    have split : line = front ++ kept ++ ['/', '/'] ++ note := by simp [whole]
    rw [starts, split, slice?_right]
  have size : difference? (width line) (width (front ++ kept)) =
      some (width ('/' :: '/' :: note)) := by
    rw [whole, width_append _ ('/' :: '/' :: note), difference?_add]
  rw [scan?, dif_pos (inside_of_split whole)]
  simp only [ahead, getElem_ascii whole (by decide : '/'.toNat < 128), Option.bind_eq_bind,
    Option.bind_some, OpeningMark.read?_line, isKept, isNote, size]

theorem scan?_block (style : CommentStyle) {s : List Char}
    (whole : line = front ++ kept ++ (style.opener ++ s)) :
    scan? line number (width front) read none (width (front ++ kept)) =
      match style.splitAtCloser s with
      | some (note, _) =>
        let text := style.opener ++ note ++ style.closer
        scan? line number (width (front ++ kept ++ text))
          ((read.addCode kept).addComment (width (front ++ kept)) (width text) note) none
          (width (front ++ kept ++ text))
      | none =>
        some ((read.addCode kept).addComment (width (front ++ kept)) (width (style.opener ++ s)) s,
          some ⟨style, number⟩) := by
  have ascii : style.outer.1.toNat < 128 := by cases style <;> decide
  have begins : line = front ++ kept ++ style.outer.1 :: '*' :: s := whole
  have ahead : bytesFrom? (bytes line) (width (front ++ kept)) =
      some (bytes (style.opener ++ s)) := by
    rw [whole, bytesFrom?_width]
  have isKept : slice? line (width front) (width (front ++ kept)) = some kept := by
    rw [whole, slice?_middle]
  have starts : width (front ++ kept) + width style.opener =
      width (front ++ kept ++ style.opener) := by
    rw [width_append _ style.opener]
  have isInner : slice? line (width (front ++ kept ++ style.opener)) (width line) = some s := by
    rw [whole, ← List.append_assoc, slice?_right]
  rw [scan?, dif_pos (inside_of_split begins)]
  simp only [ahead, getElem_ascii begins ascii, Option.bind_eq_bind, Option.bind_some,
    OpeningMark.read?_block, isKept, starts, isInner, CommentStyle.offsetOf?_closer]
  cases split : style.splitAtCloser s with
  | none =>
    have size : difference? (width line) (width (front ++ kept)) =
        some (width (style.opener ++ s)) := by
      rw [whole, width_append _ (style.opener ++ s), difference?_add]
    simp only [Option.map_none, size, Option.bind_some]
  | some parts =>
    obtain ⟨note, rest⟩ := parts
    have closes : s = note ++ style.closer ++ rest := by
      simp [splitAtPair_eq split, CommentStyle.closer]
    have isNote : slice? line (width (front ++ kept ++ style.opener))
        (width (front ++ kept ++ style.opener) + width note) = some note := by
      have split : line = front ++ kept ++ style.opener ++ note ++ (style.closer ++ rest) := by
        simp [whole, closes]
      rw [← width_append, split, slice?_middle]
    have stops : width (front ++ kept ++ style.opener) + width note + width style.closer =
        width (front ++ kept ++ (style.opener ++ note ++ style.closer)) := by
      simp only [width_append]
      omega
    have size : difference? (width (front ++ kept ++ (style.opener ++ note ++ style.closer)))
        (width (front ++ kept)) = some (width (style.opener ++ note ++ style.closer)) := by
      rw [width_append _ (style.opener ++ note ++ style.closer), difference?_add]
    simp only [Option.map_some, isNote, stops, size, Option.bind_some]

theorem scan?_segments {s : List Char} (whole : line = front ++ kept ++ s) :
    scan? line number (width front) read none (width (front ++ kept)) =
      some ((read.addCode kept).readOn number (width (front ++ kept)) (segments s)) := by
  fun_induction segments s generalizing front kept read with
  | case1 =>
    have isEnd : ¬width (front ++ kept) < (bytes line).length := by simp [whole, length_bytes]
    have start : min (width front) (width line) = width front := by simp [whole]
    have isKept : slice? line (width front) (width line) = some kept := by
      rw [whole, List.append_nil, slice?_right]
    rw [scan?, dif_neg isEnd, start, isKept, StrippedLine.readOn_nil]
    rfl
  | case2 c s ih =>
    -- A stretch of code joins what is kept.
    have code {text rest : List Char} (next : Segment.next c s = (.code text, rest))
        (moves : scan? line number (width front) read none (width (front ++ kept)) =
          scan? line number (width front) read none (width (front ++ kept ++ text))) :
        scan? line number (width front) read none (width (front ++ kept)) =
          some ((read.addCode kept).readOn number (width (front ++ kept))
            ((Segment.next c s).1 :: segments (Segment.next c s).2)) := by
      have parts := Segment.next_text c s
      rw [next] at ih parts ⊢
      have later : line = front ++ (kept ++ text) ++ rest := by
        rw [whole, ← parts]
        simp [Segment.text]
      rw [moves, List.append_assoc, ih read later, StrippedLine.readOn_code,
        StrippedLine.addCode_addCode, ← List.append_assoc, width_append _ text]
    -- What stands behind a comment is kept from its end on.
    have block (style : CommentStyle) {rest : List Char} (split : c :: s = style.opener ++ rest)
        (next : Segment.next c s = Segment.block style rest) :
        scan? line number (width front) read none (width (front ++ kept)) =
          some ((read.addCode kept).readOn number (width (front ++ kept))
            ((Segment.next c s).1 :: segments (Segment.next c s).2)) := by
      have parts := Segment.next_text c s
      rw [split] at whole parts
      rw [next] at ih parts ⊢
      rw [scan?_block number read style whole]
      cases closes : style.splitAtCloser rest with
      | none => simp [Segment.block, closes, segments, StrippedLine.readOn_last]
      | some split =>
        obtain ⟨note, after⟩ := split
        have isBlock : Segment.block style rest =
            (.comment (style.opener ++ note ++ style.closer) note none, after) := by
          simp [Segment.block, closes]
        rw [isBlock] at ih parts ⊢
        have later : line = front ++ kept ++ (style.opener ++ note ++ style.closer) ++ [] ++
            after := by
          rw [whole, ← parts]
          simp [Segment.text]
        have others := ih ((read.addCode kept).addComment (width (front ++ kept))
          (width (style.opener ++ note ++ style.closer)) note) later
        rw [List.append_nil, StrippedLine.addCode_nil] at others
        rw [StrippedLine.readOn_closed, ← width_append]
        exact others
    cases opens : stringClose? c with
    | some close =>
      refine code (Segment.next_of_string opens s) ?_
      exact scan?_string number (width front) read whole opens
    | none =>
      by_cases apart : ∀ d ∈ s.head?, Apart c d
      · refine code (Segment.next_of_apart opens apart) ?_
        exact scan?_plain number (width front) read whole opens apart
      · obtain ⟨rest, ⟨rfl, rfl⟩ | ⟨rfl, rfl⟩ | ⟨rfl, rfl⟩⟩ := comment_of_not_apart apart
        · have next : Segment.next '/' ('/' :: rest) =
              (.comment ('/' :: '/' :: rest) rest none, []) := rfl
          rw [scan?_lineComment number read whole, next, segments, StrippedLine.readOn_last]
          rfl
        · exact block .paren rfl rfl
        · exact block .slash rfl rfl

end Scan

def strip? (carried : Option OpenComment) (line : List Char) (number : Nat) :
    Option (StrippedLine × Option OpenComment) :=
  match carried with
  | none => scan? line number 0 ⟨[], []⟩ none 0
  | some comment =>
    match offsetOf? comment.style.closer line with
    | some found => do
      let note ← slice? line 0 found
      let stop := found + width comment.style.closer
      scan? line number stop (StrippedLine.addComment ⟨[], []⟩ 0 stop note) none stop
    | none => some (StrippedLine.addComment ⟨[], []⟩ 0 (width line) line, some comment)

theorem strip?_eq (carried : Option OpenComment) (line : List Char) (number : Nat) :
    strip? carried line number = some (strip carried line number) := by
  cases carried with
  | none =>
    exact scan?_segments number ⟨[], []⟩ (show line = [] ++ [] ++ line from rfl)
  | some comment =>
    rw [strip?, CommentStyle.offsetOf?_closer, strip]
    cases splits : comment.style.splitAtCloser line with
    | none => simp [StrippedLine.addComment, StrippedLine.ofSegments, commentsFrom, Segment.blanked]
    | some parts =>
      obtain ⟨note, rest⟩ := parts
      have whole : line = note ++ comment.style.closer ++ rest := by
        simp [splitAtPair_eq splits, CommentStyle.closer]
      have isNote : slice? line 0 (width note) = some note := by
        simpa [whole] using slice?_middle [] note (comment.style.closer ++ rest)
      have others := scan?_segments number (StrippedLine.addComment ⟨[], []⟩ 0
        (width (note ++ comment.style.closer)) note)
        (show line = note ++ comment.style.closer ++ [] ++ rest by rw [List.append_nil, whole])
      rw [List.append_nil, StrippedLine.addCode_nil] at others
      have first := StrippedLine.readOn_closed number ⟨[], []⟩ 0
        (note ++ comment.style.closer) note (segments rest)
      rw [Nat.zero_add] at first
      simp only [Option.map_some, isNote, Option.bind_eq_bind, Option.bind_some, ← width_append,
        others, ← first]
      rfl

def stripEach? (carried : Option OpenComment) :
    List (List Char × Nat) → Option (List StrippedLine × Option OpenComment)
  | [] => some ([], carried)
  | (line, number) :: rest => do
    let (stripped, left) ← strip? carried line number
    let (others, last) ← stripEach? left rest
    some (stripped :: others, last)

theorem stripEach?_eq (carried : Option OpenComment) (numbered : List (List Char × Nat)) :
    stripEach? carried numbered = some (stripEach carried numbered) := by
  induction numbered generalizing carried with
  | nil => rfl
  | cons first numbered ih =>
    obtain ⟨line, number⟩ := first
    simp [stripEach?, stripEach, strip?_eq, ih]

end Bytewise

end StructuredText
