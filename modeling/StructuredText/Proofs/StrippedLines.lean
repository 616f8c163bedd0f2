import StructuredText.Proofs.CommentBytes
import StructuredText.Proofs.CommentFree

set_option autoImplicit false

namespace StructuredText

inductive Segment.Marked : Segment → List (UInt8 × ByteKind) → Prop where
  | code (text : List Char) : Marked (.code text) (tag .code text)
  | comment {first second : Char} {text note last : List Char} {stillOpen : Option CommentStyle}
      (isText : text = first :: second :: (note ++ last)) (ascii : first.toNat < 128)
      (also : second.toNat < 128) :
      Marked (.comment text note stillOpen)
        (tag .start [first] ++ tag .mark [second] ++ (tag .inner note ++ tag .mark last))

def readAfter (number : Nat) : Segment × List Char → List (UInt8 × ByteKind) × Option OpenComment
  | (part, rest) =>
    match part.stillOpen? with
    | none => Mode.code.read number (bytes rest)
    | some style => ([], some ⟨style, number⟩)

namespace Mode

variable (number : Nat)

theorem read_quote {c close : Char} (opens : stringClose? c = some close) (s : List Char) :
    code.read number (bytes (c :: s)) =
      behind (tag .code (c :: (splitQuoted close s).1))
        (code.read number (bytes (splitQuoted close s).2)) := by
  have noDollar := quoteClose?_ne_escape (quoteClose?_of_string opens)
  have isQuote : (c = '\x27' ∨ c = '\x22') ∧ close = c := by
    simp only [stringClose?] at opens
    split at opens
    · exact ⟨‹_›, (Option.some.inj opens).symm⟩
    · cases opens
  obtain ⟨isQuote, rfl⟩ := isQuote
  have ascii : close.toNat < 128 := by rcases isQuote with rfl | rfl <;> decide
  have step : code.next number close.toUInt8 (bytes s).head? = (.code, string close.toUInt8) := by
    rcases isQuote with rfl | rfl <;> simp [next]
  rw [read_ascii number _ ascii, step, read_string number ascii noDollar, behind_behind,
    ← tag_append]
  rfl

theorem read_plain {c : Char} {s : List Char} (unquoted : stringClose? c = none)
    (apart : ∀ d ∈ s.head?, Apart c d) :
    code.read number (bytes (c :: s)) = behind (tag .code [c]) (code.read number (bytes s)) := by
  have noQuote : ¬(c = '\x27' ∨ c = '\x22') := by
    intro isQuote
    simp [stringClose?, isQuote] at unquoted
  by_cases ascii : c.toNat < 128
  · have step : code.next number c.toUInt8 (bytes s).head? = (.code, code) := by
      have noLine : ¬(c = '/' ∧ s.head? = some '/') := fun both => (apart _ both.2).1 ⟨both.1, rfl⟩
      have noParen : ¬(c = '(' ∧ s.head? = some '*') :=
        fun both => (apart _ both.2).2.1 ⟨both.1, rfl⟩
      have noSlash : ¬(c = '/' ∧ s.head? = some '*') :=
        fun both => (apart _ both.2).2.2 ⟨both.1, rfl⟩
      rw [← head_bytes (by decide), ← toUInt8_eq_iff ascii (by decide)] at noLine noParen noSlash
      rw [← toUInt8_eq_iff ascii (by decide), ← toUInt8_eq_iff ascii (by decide)] at noQuote
      simp only [next, if_neg noQuote, if_neg noLine, if_neg noParen, if_neg noSlash]
    rw [read_ascii number _ ascii, step]
  · have steady : ∀ byte ∈ String.utf8EncodeChar c, ∀ ahead,
        code.next number byte ahead = (.code, code) := by
      intro byte member ahead
      have differs {d : Char} (small : d.toNat < 128) : byte ≠ d.toUInt8 :=
        ne_of_wide (wide_of_mem_encode ascii byte member) small
      simp [next, @differs '\x27' (by decide), @differs '\x22' (by decide),
        @differs '/' (by decide), @differs '(' (by decide)]
    rw [bytes_cons, read_steady number steady, tag_cons, tag_nil, List.append_nil]

theorem read_lineComment (note : List Char) :
    code.read number (bytes ('/' :: '/' :: note)) =
      (tag .start ['/'] ++ tag .mark ['/'] ++ tag .inner note, none) := by
  have ahead : (bytes ('/' :: note)).head? = some '/'.toUInt8 :=
    (head_bytes (by decide) _).mpr rfl
  have opens : code.next number '/'.toUInt8 (some '/'.toUInt8) = (.start, lineMark) := rfl
  have reading : lineMark.read number (bytes ('/' :: note)) =
      behind (tag .mark ['/']) (line.read number (bytes note)) :=
    read_ascii number _ (by decide) note
  rw [read_ascii number _ (by decide), ahead, opens, reading, read_line, behind_behind, behind]

theorem read_opener (style : CommentStyle) (s : List Char) :
    code.read number (bytes (style.opener ++ s)) =
      behind (tag .start [style.outer.1] ++ tag .mark ['*'])
        ((block ⟨style, number⟩).read number (bytes s)) := by
  have ascii : style.outer.1.toNat < 128 := by cases style <;> decide
  have ahead : (bytes ('*' :: s)).head? = some '*'.toUInt8 := (head_bytes (by decide) _).mpr rfl
  have opens : code.next number style.outer.1.toUInt8 (some '*'.toUInt8) =
      (.start, opening ⟨style, number⟩) := by
    cases style <;> rfl
  have reading : (opening ⟨style, number⟩).read number (bytes ('*' :: s)) =
      behind (tag .mark ['*']) ((block ⟨style, number⟩).read number (bytes s)) :=
    read_ascii number _ (by decide) s
  rw [CommentStyle.opener, List.cons_append, List.singleton_append, read_ascii number _ ascii,
    ahead, opens, reading, behind_behind]

theorem read_blockComment (style : CommentStyle) (s : List Char) :
    ∃ marked, (Segment.block style s).1.Marked marked ∧
      code.read number (bytes (style.opener ++ s)) =
        behind marked (readAfter number (Segment.block style s)) := by
  have ascii : style.outer.1.toNat < 128 := by cases style <;> decide
  rw [read_opener, read_block]
  unfold Segment.block
  cases style.splitAtCloser s with
  | none =>
    have isText : style.opener ++ s = style.outer.1 :: '*' :: (s ++ []) := by
      rw [List.append_nil]
      rfl
    exact ⟨_, .comment isText ascii (by decide), by simp [readAfter, Segment.stillOpen?, behind]⟩
  | some parts =>
    obtain ⟨note, rest⟩ := parts
    have isText : style.opener ++ note ++ style.closer =
        style.outer.1 :: '*' :: (note ++ style.closer) := rfl
    exact ⟨_, .comment isText ascii (by decide), behind_behind ..⟩

theorem read_next (c : Char) (s : List Char) :
    ∃ marked, (Segment.next c s).1.Marked marked ∧
      code.read number (bytes (c :: s)) = behind marked (readAfter number (Segment.next c s)) := by
  cases opens : stringClose? c with
  | some close =>
    rw [Segment.next_of_string opens, read_quote number opens]
    exact ⟨_, .code _, rfl⟩
  | none =>
    by_cases apart : ∀ d ∈ s.head?, Apart c d
    · rw [Segment.next_of_apart opens apart, read_plain number opens apart]
      exact ⟨_, .code _, rfl⟩
    · obtain ⟨rest, ⟨rfl, rfl⟩ | ⟨rfl, rfl⟩ | ⟨rfl, rfl⟩⟩ := comment_of_not_apart apart
      · have isText : '/' :: '/' :: rest = '/' :: '/' :: (rest ++ []) := by rw [List.append_nil]
        have next : Segment.next '/' ('/' :: rest) =
            (.comment ('/' :: '/' :: rest) rest none, []) := rfl
        have nothing : readAfter number (Segment.next '/' ('/' :: rest)) = ([], none) := rfl
        rw [read_lineComment, nothing, next]
        exact ⟨_, .comment isText (by decide) (by decide), by simp [behind]⟩
      · exact read_blockComment number .paren rest
      · exact read_blockComment number .slash rest

end Mode

theorem Segment.next_of_stillOpen {c : Char} {s : List Char} {style : CommentStyle}
    (stillOpen : (next c s).1.stillOpen? = some style) : (next c s).2 = [] := by
  cases opens : stringClose? c with
  | some close =>
    rw [next_of_string opens] at stillOpen
    cases stillOpen
  | none =>
    have ofBlock {other : CommentStyle} {rest : List Char}
        (stillOpen : (block other rest).1.stillOpen? = some style) : (block other rest).2 = [] := by
      unfold block at stillOpen ⊢
      split at stillOpen
      · cases stillOpen
      · rfl
    by_cases apart : ∀ d ∈ s.head?, Apart c d
    · rw [next_of_apart opens apart] at stillOpen
      cases stillOpen
    · obtain ⟨rest, ⟨rfl, rfl⟩ | ⟨rfl, rfl⟩ | ⟨rfl, rfl⟩⟩ := comment_of_not_apart apart
      · rfl
      · exact ofBlock stillOpen
      · exact ofBlock stillOpen

theorem stillOpen_cons {part : Segment} (closed : part.stillOpen? = none) (segs : List Segment) :
    (part :: segs).getLast?.bind Segment.stillOpen? =
      segs.getLast?.bind Segment.stillOpen? := by
  cases segs with
  | nil => exact closed
  | cons other segs => rw [List.getLast?_cons_cons]

theorem read_segments (number : Nat) (s : List Char) :
    ∃ parts, List.Forall₂ Segment.Marked (segments s) parts ∧
      Mode.code.read number (bytes s) =
        (parts.flatten,
          ((segments s).getLast?.bind Segment.stillOpen?).map fun style => ⟨style, number⟩) := by
  fun_induction segments s with
  | case1 => exact ⟨[], .nil, rfl⟩
  | case2 c s ih =>
    obtain ⟨marked, isMarked, reading⟩ := Mode.read_next number c s
    obtain ⟨parts, areMarked, others⟩ := ih
    refine ⟨marked :: parts, .cons isMarked areMarked, ?_⟩
    rw [reading, readAfter, List.flatten_cons]
    cases stillOpen : (Segment.next c s).1.stillOpen? with
    | none =>
      rw [others, stillOpen_cons stillOpen]
      rfl
    | some style =>
      have nothing := Segment.next_of_stillOpen stillOpen
      rw [nothing, segments] at areMarked ⊢
      cases areMarked
      simp [behind, stillOpen]

section Blanks

theorem bytes_spaces (count : Nat) :
    bytes (List.replicate count ' ') = List.replicate count ' '.toUInt8 := by
  induction count with
  | zero => rfl
  | succ count ih => simp [List.replicate_succ, ih, encode_of_ascii]

theorem shown_tag_code (s : List Char) : (tag .code s).map shown = bytes s := by
  simp [tag, shown, Function.comp_def]

theorem shown_outside {marked : List (UInt8 × ByteKind)} (outside : ∀ p ∈ marked, p.2 ≠ .code) :
    marked.map shown = bytes (List.replicate marked.length ' ') := by
  rw [bytes_spaces, List.eq_replicate_iff]
  refine ⟨List.length_map shown, fun byte member => ?_⟩
  obtain ⟨p, inside, rfl⟩ := List.mem_map.mp member
  exact if_neg (outside p inside)

theorem Segment.Marked.map_fst {part : Segment} {marked : List (UInt8 × ByteKind)}
    (isMarked : part.Marked marked) : marked.map Prod.fst = bytes part.text := by
  cases isMarked with
  | code text => exact map_fst_tag .code text
  | comment isText ascii also => simp [isText, text, map_fst_tag]

theorem Segment.Marked.map_shown {part : Segment} {marked : List (UInt8 × ByteKind)}
    (isMarked : part.Marked marked) : marked.map shown = bytes part.blanked := by
  have isWidth := congrArg List.length isMarked.map_fst
  rw [List.length_map, length_bytes] at isWidth
  cases isMarked with
  | code text => exact shown_tag_code text
  | comment isText ascii also =>
    rw [shown_outside, isWidth]
    · rfl
    · intro p member
      simp only [List.mem_append] at member
      rcases member with (member | member) | member | member <;> simp [kind_of_mem_tag member]

theorem map_shown_flatten {segs : List Segment} {parts : List (List (UInt8 × ByteKind))}
    (areMarked : List.Forall₂ Segment.Marked segs parts) :
    parts.flatten.map shown = bytes (segs.flatMap Segment.blanked) := by
  induction areMarked with
  | nil => rfl
  | cons isMarked _ ih => simp [isMarked.map_shown, ih]

end Blanks

section Notes

theorem notesFrom_append {marked : List (UInt8 × ByteKind)} (noStart : ∀ p ∈ marked, p.2 ≠ .start)
    (offset : Nat) (rest : List (UInt8 × ByteKind)) :
    notesFrom offset (marked ++ rest) = notesFrom (offset + marked.length) rest := by
  induction marked generalizing offset with
  | nil => rfl
  | cons p marked ih =>
    have others := ih (fun q member => noStart q (List.mem_cons_of_mem p member)) (offset + 1)
    have first := noStart p List.mem_cons_self
    rw [List.cons_append, notesFrom, if_neg first, others, List.length_cons]
    congr 1
    omega

theorem notesFrom_ordered (offset : Nat) (marked : List (UInt8 × ByteKind)) :
    (∀ note ∈ notesFrom offset marked, offset ≤ note.1) ∧
      (notesFrom offset marked).Pairwise (fun one other => one.1 < other.1) := by
  induction marked generalizing offset with
  | nil => exact ⟨nofun, .nil⟩
  | cons p marked ih =>
    obtain ⟨behind, ordered⟩ := ih (offset + 1)
    rw [notesFrom]
    split
    · refine ⟨List.forall_mem_cons.mpr ⟨Nat.le_refl offset, ?_⟩, .cons behind ordered⟩
      exact fun note member => Nat.le_of_succ_le (behind note member)
    · exact ⟨fun note member => Nat.le_of_succ_le (behind note member), ordered⟩

structure LineComment.Agrees (comment : LineComment) (note : Nat × List UInt8) : Prop where
  start : comment.start = note.1
  text : ∃ inner, bytes inner = note.2 ∧ comment.text = String.ofList (trim inner)

def Outside (marked : List (UInt8 × ByteKind)) : Prop :=
  ∀ p ∈ marked.head?, p.2 ≠ .inner

theorem Outside.tag_append {kind : ByteKind} (other : kind ≠ .inner) (s : List Char)
    {rest : List (UInt8 × ByteKind)} (outside : Outside rest) : Outside (tag kind s ++ rest) := by
  cases isTag : tag kind s with
  | nil => exact outside
  | cons p marked =>
    rintro q ⟨⟩
    rw [@kind_of_mem_tag kind s p (isTag ▸ List.mem_cons_self)]
    exact other

theorem outside_flatten {segs : List Segment} {parts : List (List (UInt8 × ByteKind))}
    (areMarked : List.Forall₂ Segment.Marked segs parts) : Outside parts.flatten := by
  induction areMarked with
  | nil => exact nofun
  | @cons part marked _ _ isMarked _ ih =>
    cases isMarked with
    | code text => exact ih.tag_append (by decide) text
    | comment isText ascii also =>
      rw [tag_ascii _ ascii]
      rintro q ⟨⟩
      exact nofun

theorem innerBytes_tag (s : List Char) {rest : List (UInt8 × ByteKind)} (outside : Outside rest) :
    innerBytes (tag .inner s ++ rest) = bytes s := by
  have stops : rest.takeWhile (fun p => p.2 = .inner) = [] := by
    cases rest with
    | nil => rfl
    | cons p rest => exact List.takeWhile_cons_of_neg (by simpa using outside p rfl)
  have goesOn : ∀ p ∈ tag .inner s, decide (p.2 = .inner) = true :=
    fun p member => decide_eq_true (kind_of_mem_tag member)
  rw [innerBytes, List.takeWhile_append_of_pos goesOn, stops, List.append_nil, map_fst_tag]

theorem notes_agree {segs : List Segment} {parts : List (List (UInt8 × ByteKind))}
    (areMarked : List.Forall₂ Segment.Marked segs parts) (offset : Nat) :
    List.Forall₂ LineComment.Agrees (commentsFrom offset segs)
      (notesFrom offset parts.flatten) := by
  induction areMarked generalizing offset with
  | nil => exact .nil
  | @cons part marked segs parts isMarked areMarked ih =>
    cases isMarked with
    | code text =>
      have noStart : ∀ p ∈ tag .code text, p.2 ≠ .start := by
        intro p member
        simp [kind_of_mem_tag member]
      rw [List.flatten_cons, notesFrom_append noStart, length_tag]
      exact ih _
    | @comment first second text note last stillOpen isText ascii also =>
      let inside := tag .mark [second] ++ (tag .inner note ++ tag .mark last)
      have noStart : ∀ p ∈ inside, p.2 ≠ .start := by
        intro p member
        simp only [inside, List.mem_append] at member
        rcases member with member | member | member <;> simp [kind_of_mem_tag member]
      have isWidth : width text = 1 + inside.length := by
        have one : width [first] = 1 := by rw [← length_tag .start, tag_ascii _ ascii]; rfl
        rw [isText, ← List.singleton_append, width_append, one]
        simp [inside, length_tag, width]
      have later : Outside (tag .mark last ++ parts.flatten) :=
        (outside_flatten areMarked).tag_append (by decide) last
      have whole : ((tag .start [first] ++ tag .mark [second] ++
            (tag .inner note ++ tag .mark last)) :: parts).flatten =
          (first.toUInt8, .start) :: (inside ++ parts.flatten) := by
        simp [inside, tag_ascii .start ascii]
      have isNote : innerBytes (inside ++ parts.flatten).tail = bytes note := by
        rw [← innerBytes_tag note later]
        simp [inside, tag_ascii .mark also]
      rw [whole, notesFrom, if_pos rfl, isNote, notesFrom_append noStart, Nat.add_assoc, ← isWidth]
      exact .cons ⟨rfl, note, rfl, rfl⟩ (ih _)

end Notes

theorem MarkedLine.notes_ordered {line : MarkedLine}
    (carriedIn : line.inComment = true → ∀ p ∈ line.marked.head?, p.2 ≠ .start) :
    line.notes.Pairwise (fun one other => one.1 < other.1) := by
  obtain ⟨inComment, marked⟩ := line
  cases inComment with
  | false => exact (notesFrom_ordered 0 marked).2
  | true =>
    have behindMark : ∀ note ∈ notesFrom 0 marked, 0 < note.1 := by
      cases marked with
      | nil => exact nofun
      | cons p marked =>
        rw [notesFrom, if_neg (carriedIn rfl p rfl)]
        exact (notesFrom_ordered 1 marked).1
    exact .cons behindMark (notesFrom_ordered 0 marked).2

/-- The code of a line has its bytes where the automaton is outside of comments, and spaces
elsewhere. Its comments are those that the automaton enters or is in when the line begins. -/
structure StrippedLine.Agrees (stripped : StrippedLine) (line : MarkedLine) : Prop where
  length : (bytes stripped.code).length = line.bytes.length
  code : bytes stripped.code = line.blanked
  comments : List.Forall₂ LineComment.Agrees stripped.comments line.notes
  ordered : (stripped.comments.map LineComment.start).Pairwise (· < ·)

theorem StrippedLine.agrees {stripped : StrippedLine} {line : MarkedLine}
    (code : bytes stripped.code = line.blanked)
    (comments : List.Forall₂ LineComment.Agrees stripped.comments line.notes)
    (carriedIn : line.inComment = true → ∀ p ∈ line.marked.head?, p.2 ≠ .start) :
    stripped.Agrees line where
  length := by simp [code, MarkedLine.blanked, MarkedLine.bytes]
  code := code
  comments := comments
  ordered := by
    have starts : stripped.comments.map LineComment.start = line.notes.map Prod.fst := by
      rw [← List.forall₂_eq_eq_eq, List.forall₂_map_left_iff, List.forall₂_map_right_iff]
      exact comments.imp fun _ _ agrees => agrees.start
    rw [starts, List.pairwise_map]
    exact MarkedLine.notes_ordered carriedIn

theorem carried_agrees (note last : List Char) (stillOpen : Option CommentStyle)
    {segs : List Segment} {parts : List (List (UInt8 × ByteKind))}
    (areMarked : List.Forall₂ Segment.Marked segs parts) (goesOn : last = [] → parts = []) :
    (StrippedLine.ofSegments (.comment (note ++ last) note stillOpen :: segs)).Agrees
      ⟨true, tag .inner note ++ tag .mark last ++ parts.flatten⟩ := by
  let inside := tag .inner note ++ tag .mark last
  have kinds : ∀ p ∈ inside, p.2 = .inner ∨ p.2 = .mark := fun p member =>
    (List.mem_append.mp member).imp kind_of_mem_tag kind_of_mem_tag
  have isWidth : inside.length = width (note ++ last) := by simp [inside, length_tag]
  have later : Outside (tag .mark last ++ parts.flatten) :=
    (outside_flatten areMarked).tag_append (by decide) last
  refine StrippedLine.agrees ?code ?comments ?carriedIn
  case code =>
    have blanks : inside.map shown = bytes (List.replicate (width (note ++ last)) ' ') := by
      rw [shown_outside, isWidth]
      intro p member
      rcases kinds p member with kind | kind <;> simp [kind]
    rw [MarkedLine.blanked, List.map_append, map_shown_flatten areMarked]
    exact (congrArg (· ++ _) blanks).symm ▸ bytes_append ..
  case comments =>
    have noStart : ∀ p ∈ inside, p.2 ≠ .start := by
      intro p member
      rcases kinds p member with kind | kind <;> simp [kind]
    have isNote : innerBytes (inside ++ parts.flatten) = bytes note := by
      rw [List.append_assoc, innerBytes_tag note later]
    have notes : MarkedLine.notes ⟨true, inside ++ parts.flatten⟩ =
        (0, bytes note) :: notesFrom (0 + width (note ++ last)) parts.flatten := by
      rw [MarkedLine.notes, isNote, notesFrom_append noStart, isWidth]
      rfl
    rw [notes]
    exact .cons ⟨rfl, note, rfl, rfl⟩ (notes_agree areMarked _)
  case carriedIn =>
    intro _ p first
    change p ∈ (inside ++ parts.flatten).head? at first
    cases isInside : inside with
    | nil =>
      have nothing : last = [] := by
        by_contra nonempty
        have positive := width_pos nonempty
        rw [isInside, List.length_nil, width_append] at isWidth
        omega
      rw [isInside, goesOn nothing] at first
      cases first
    | cons q others =>
      rw [isInside] at first kinds
      obtain rfl : q = p := Option.some.inj first
      rcases kinds q List.mem_cons_self with kind | kind <;> simp [kind]

theorem strip_agrees (carried : Option OpenComment) (line : List Char) (number : Nat) :
    (strip carried line number).1.Agrees
        ⟨carried.isSome, ((Mode.ofCarried carried).read number (bytes line)).1⟩ ∧
      (strip carried line number).2 = ((Mode.ofCarried carried).read number (bytes line)).2 := by
  cases carried with
  | none =>
    obtain ⟨parts, areMarked, reading⟩ := read_segments number line
    rw [Mode.ofCarried, reading]
    exact ⟨StrippedLine.agrees (map_shown_flatten areMarked).symm (notes_agree areMarked 0)
      (fun inComment => by cases inComment), rfl⟩
  | some comment =>
    have reading := Mode.read_block number comment line
    cases splits : comment.style.splitAtCloser line with
    | none =>
      have agrees := carried_agrees line [] (some comment.style) .nil fun _ => rfl
      simp only [List.append_nil, tag_nil, List.flatten_nil] at agrees
      rw [splits] at reading
      simp only [strip, splits, Mode.ofCarried, reading, and_true]
      exact agrees
    | some both =>
      obtain ⟨note, rest⟩ := both
      obtain ⟨parts, areMarked, others⟩ := read_segments number rest
      have stillOpen := @stillOpen_cons (.comment (note ++ comment.style.closer) note none) rfl
        (segments rest)
      rw [splits] at reading
      simp only [strip, splits, strip.finish, Mode.ofCarried, reading, others, behind, stillOpen,
        and_true]
      exact carried_agrees note comment.style.closer none areMarked
        fun nothing => absurd nothing (List.cons_ne_nil _ _)

def stripEach (carried : Option OpenComment) :
    List (List Char × Nat) → List StrippedLine × Option OpenComment
  | [] => ([], carried)
  | (line, number) :: rest =>
    let (stripped, left) := strip carried line number
    let (others, last) := stripEach left rest
    (stripped :: others, last)

theorem stripLines_eq_stripEach (count : Nat) (carried : Option OpenComment)
    (raws : List (List Char)) :
    stripLines count carried raws = stripEach carried (raws.zipIdx (count + 1)) := by
  induction raws generalizing count carried with
  | nil => rfl
  | cons raw raws ih => simp [stripLines, stripEach, ih]

theorem stripEach_agrees (carried : Option OpenComment) (numbered : List (List Char × Nat)) :
    let stripped := stripEach carried numbered
    let marked := readLines carried (numbered.map fun (line, number) => (bytes line, number))
    marked.1.map MarkedLine.bytes = numbered.map (fun (line, _) => bytes line) ∧
      List.Forall₂ StrippedLine.Agrees stripped.1 marked.1 ∧ stripped.2 = marked.2 := by
  induction numbered generalizing carried with
  | nil => exact ⟨rfl, .nil, rfl⟩
  | cons first numbered ih =>
    obtain ⟨line, number⟩ := first
    obtain ⟨agrees, carries⟩ := strip_agrees carried line number
    obtain ⟨sameBytes, others, last⟩ := ih (strip carried line number).2
    rw [carries] at sameBytes others last
    simp only [stripEach, readLines, List.map_cons, carries]
    refine ⟨?_, .cons agrees others, last⟩
    rw [sameBytes, MarkedLine.bytes, Mode.map_fst_read]

end StructuredText
