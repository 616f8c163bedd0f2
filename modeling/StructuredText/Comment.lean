import StructuredText.Quoted
import StructuredText.Text.Blank
import StructuredText.Text.Width

set_option autoImplicit false

namespace StructuredText

inductive CommentStyle where
  | paren
  | slash
  deriving DecidableEq

structure OpenComment where
  style : CommentStyle
  line : Nat
  deriving DecidableEq

structure LineComment where
  -- Byte offset of the comment in its line.
  start : Nat
  text : String
  deriving DecidableEq

structure StrippedLine where
  code : List Char
  comments : List LineComment
  deriving DecidableEq

namespace CommentStyle

def outer : CommentStyle → Char × Char
  | paren => ('(', ')')
  | slash => ('/', '/')

def opener (style : CommentStyle) : List Char :=
  [style.outer.1, '*']

def closer (style : CommentStyle) : List Char :=
  ['*', style.outer.2]

def splitAtCloser (style : CommentStyle) (s : List Char) : Option (List Char × List Char) :=
  splitAtPair '*' style.outer.2 s

end CommentStyle

/-- A stretch of a line. A comment keeps its full text and the note between its marks, and says
whether it is still open at the end of the line. -/
inductive Segment where
  | code (text : List Char)
  | comment (text note : List Char) (stillOpen : Option CommentStyle)
  deriving DecidableEq

namespace Segment

def text : Segment → List Char
  | code text => text
  | comment text _ _ => text

def blanked : Segment → List Char
  | code text => text
  | comment text _ _ => List.replicate (width text) ' '

def stillOpen? : Segment → Option CommentStyle
  | code _ => none
  | comment _ _ stillOpen => stillOpen

def block (style : CommentStyle) (s : List Char) : Segment × List Char :=
  match style.splitAtCloser s with
  | some (note, rest) => (comment (style.opener ++ note ++ style.closer) note none, rest)
  | none => (comment (style.opener ++ s) s (some style), [])

def next (c : Char) (s : List Char) : Segment × List Char :=
  match stringClose? c with
  | some close =>
    let (quoted, rest) := splitQuoted close s
    (code (c :: quoted), rest)
  | none =>
    match c, s with
    | '/', '/' :: note => (comment ('/' :: '/' :: note) note none, [])
    | '(', '*' :: s => block .paren s
    | '/', '*' :: s => block .slash s
    | c, s => (code [c], s)

def isCode : Segment → Bool
  | code _ => true
  | comment .. => false

theorem block_text (style : CommentStyle) (s : List Char) :
    (block style s).1.text ++ (block style s).2 = style.opener ++ s := by
  simp only [block, CommentStyle.splitAtCloser]
  split
  · rename_i split
    simp [text, CommentStyle.closer, splitAtPair_eq split]
  · simp [text]

theorem next_text (c : Char) (s : List Char) : (next c s).1.text ++ (next c s).2 = c :: s := by
  unfold next
  split
  · simp [text, splitQuoted_append]
  · split
    · simp [text]
    · exact block_text ..
    · exact block_text ..
    · rfl

theorem block_length_le (style : CommentStyle) (s : List Char) :
    (block style s).2.length ≤ s.length := by
  simp only [block, CommentStyle.splitAtCloser]
  split
  · rename_i h
    simp [splitAtPair_eq h]
    omega
  · simp

theorem next_length_le (c : Char) (s : List Char) : (next c s).2.length ≤ s.length := by
  unfold next
  split
  · exact splitQuoted_length_le ..
  · split
    · simp
    · exact Nat.le_succ_of_le (block_length_le ..)
    · exact Nat.le_succ_of_le (block_length_le ..)
    · simp

end Segment

def segments : List Char → List Segment
  | [] => []
  | c :: s => (Segment.next c s).1 :: segments (Segment.next c s).2
termination_by s => s.length
decreasing_by exact Nat.lt_succ_of_le (Segment.next_length_le c s)

theorem flatMap_text_segments (s : List Char) : (segments s).flatMap Segment.text = s := by
  fun_induction segments s with
  | case1 => rfl
  | case2 c s ih => simp [ih, Segment.next_text]

def commentsFrom (offset : Nat) : List Segment → List LineComment
  | [] => []
  | .code text :: rest => commentsFrom (offset + width text) rest
  | .comment text note _ :: rest =>
    ⟨offset, String.ofList (trim note)⟩ :: commentsFrom (offset + width text) rest

namespace StrippedLine

def ofSegments (parts : List Segment) : StrippedLine where
  code := parts.flatMap Segment.blanked
  comments := commentsFrom 0 parts

def isEmpty (line : StrippedLine) : Bool :=
  (trim line.code).isEmpty

def commentBetween (line : StrippedLine) (start : Nat) (stop : Option Nat) : Option String :=
  let texts := line.comments.filter fun comment =>
    decide (start ≤ comment.start) && stop.all (fun bound => decide (comment.start < bound)) &&
      comment.text != ""
  if texts.isEmpty then none else some (" ".intercalate (texts.map LineComment.text))

end StrippedLine

def strip (carried : Option OpenComment) (line : List Char) (number : Nat) :
    StrippedLine × Option OpenComment :=
  match carried with
  | none => finish (segments line)
  | some comment =>
    match comment.style.splitAtCloser line with
    | some (note, rest) =>
      finish (.comment (note ++ comment.style.closer) note none :: segments rest)
    | none => (.ofSegments [.comment line line (some comment.style)], some comment)
where
  finish (parts : List Segment) : StrippedLine × Option OpenComment :=
    (.ofSegments parts, (parts.getLast?.bind Segment.stillOpen?).map fun style => ⟨style, number⟩)

end StructuredText
