import StructuredText.Keyword
import StructuredText.Quoted
import StructuredText.Text.Blank
import StructuredText.Text.Width

set_option autoImplicit false

namespace StructuredText

inductive Lexeme where
  -- A string literal or pragma with its marks.
  | quoted (text : List Char)
  | word (text : List Char)
  | semicolon
  | other (c : Char)
  deriving DecidableEq

namespace Lexeme

def text : Lexeme → List Char
  | quoted text => text
  | word text => text
  | semicolon => [';']
  | other c => [c]

def next (c : Char) (s : List Char) : Lexeme × List Char :=
  match quoteClose? c with
  | some close =>
    let (inner, rest) := splitQuoted close s
    (quoted (c :: inner), rest)
  | none =>
    if c = ';' then (semicolon, s)
    else if isNameChar c then (word (c :: s.takeWhile isNameChar), s.dropWhile isNameChar)
    else (other c, s)

theorem next_text (c : Char) (s : List Char) : (next c s).1.text ++ (next c s).2 = c :: s := by
  unfold next
  split
  · simp [text, splitQuoted_append]
  · split
    · simp_all [text]
    · split <;> simp [text]

theorem next_length_le (c : Char) (s : List Char) : (next c s).2.length ≤ s.length := by
  unfold next
  split
  · exact splitQuoted_length_le ..
  · split
    · simp
    · split
      · exact (List.dropWhile_suffix _).length_le
      · simp

def isSpace : Lexeme → Bool
  | other c => isSpacing c
  | _ => false

end Lexeme

def lexemes : List Char → List Lexeme
  | [] => []
  | c :: s => (Lexeme.next c s).1 :: lexemes (Lexeme.next c s).2
termination_by s => s.length
decreasing_by exact Nat.lt_succ_of_le (Lexeme.next_length_le c s)

theorem flatMap_text_lexemes (s : List Char) : (lexemes s).flatMap Lexeme.text = s := by
  fun_induction lexemes s with
  | case1 => rfl
  | case2 c s ih => simp [ih, Lexeme.next_text]

-- The section qualifiers that directly follow a section keyword. The spaces were read before the
-- lexemes and belong to the qualifier that comes next.
def takeQualifiers (spaces : List Lexeme) : List Lexeme → List Lexeme × List Lexeme
  | [] => ([], spaces)
  | l :: ls =>
    if l.isSpace then takeQualifiers (spaces ++ [l]) ls
    else if sectionQualifiers.any fun keyword => l = .word keyword.toList then
      let (taken, rest) := takeQualifiers [] ls
      (spaces ++ l :: taken, rest)
    else ([], spaces ++ l :: ls)

def takeSemicolon (ls : List Lexeme) : List Lexeme × List Lexeme :=
  match ls.dropWhile Lexeme.isSpace with
  | .semicolon :: rest => (ls.takeWhile Lexeme.isSpace ++ [.semicolon], rest)
  | _ => ([], ls)

def takeAttached : Cut → List Lexeme → List Lexeme × List Lexeme
  | .aroundSection, ls => takeQualifiers [] ls
  | .aroundClosing, ls => takeSemicolon ls
  | _, ls => ([], ls)

theorem takeQualifiers_append (spaces ls : List Lexeme) :
    (takeQualifiers spaces ls).1 ++ (takeQualifiers spaces ls).2 = spaces ++ ls := by
  fun_induction takeQualifiers spaces ls <;> simp_all

theorem takeAttached_append (cut : Cut) (ls : List Lexeme) :
    (takeAttached cut ls).1 ++ (takeAttached cut ls).2 = ls := by
  cases cut with
  | aroundSection => exact takeQualifiers_append [] ls
  | aroundClosing =>
    rw [takeAttached, takeSemicolon]
    split
    · rename_i rest h
      simp only [List.append_assoc, List.cons_append, List.nil_append, ← h]
      exact List.takeWhile_append_dropWhile
    · rfl
  | _ => rfl

-- The stretches between the cuts. The first one continues what stands before the lexemes.
def pieces : List Lexeme → List Lexeme × List (List Lexeme)
  | [] => ([], [])
  | .semicolon :: ls => ([.semicolon], (pieces ls).1 :: (pieces ls).2)
  | .word w :: ls =>
    match Cut.ofWord? w with
    | none => (.word w :: (pieces ls).1, (pieces ls).2)
    | some .before => ([], (.word w :: (pieces ls).1) :: (pieces ls).2)
    | some .after => ([.word w], (pieces ls).1 :: (pieces ls).2)
    | some cut =>
      let attached := takeAttached cut ls
      ([], (.word w :: attached.1) :: (pieces attached.2).1 :: (pieces attached.2).2)
  | l :: ls => (l :: (pieces ls).1, (pieces ls).2)
termination_by ls => ls.length
decreasing_by
  all_goals simp_wf
  all_goals
    have := congrArg List.length (takeAttached_append cut ls)
    simp at this
    omega

structure Fragment where
  text : List Char
  start : Nat
  stop : Nat
  deriving DecidableEq

def fragmentsFrom (offset : Nat) : List (List Char) → List Fragment
  | [] => []
  | piece :: rest =>
    let text := trim piece
    let start := offset + width (piece.takeWhile isBlank)
    let others := fragmentsFrom (offset + width piece) rest
    if text = [] ∨ text = [';'] then others else ⟨text, start, start + width text⟩ :: others

def fragments (code : List Char) : List Fragment :=
  let (first, rest) := pieces (lexemes code)
  fragmentsFrom 0 ((first :: rest).map fun piece => piece.flatMap Lexeme.text)

end StructuredText
