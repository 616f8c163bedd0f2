import StructuredText.Grammar.Reader
import StructuredText.Keyword
import StructuredText.Quoted

set_option autoImplicit false

namespace StructuredText

open Reader

-- `target := expression;`. The expression may be empty, and the semicolon may be missing.
structure Assignment where
  target : List Char
  expression : List Char
  terminated : Bool
  deriving DecidableEq

namespace Assignment

def access : Reader := fun s =>
  match trimStart s with
  | '.' :: rest => Reader.name (trimStart rest)
  | s => bracketed '[' ']' s

theorem access_length {s rest : List Char} (h : access s = some rest) :
    rest.length < s.length := by
  have hs := trimStart_length_le s
  unfold access at h
  split at h
  · rename_i t heq
    have := name_length h
    have := trimStart_length_le t
    simp only [heq, List.length_cons] at hs
    omega
  · have := bracketed_length h
    omega

def afterAccesses (s : List Char) : List Char :=
  match _h : access s with
  | some rest => afterAccesses rest
  | none => s
termination_by s.length
decreasing_by exact access_length _h

theorem afterAccesses_of_some {s rest : List Char} (read : access s = some rest) :
    afterAccesses s = afterAccesses rest := by
  rw [afterAccesses]
  split
  · rename_i more
    rw [read] at more
    cases more
    rfl
  · rename_i none
    rw [read] at none
    cases none

theorem afterAccesses_of_none {s : List Char} (stops : access s = none) : afterAccesses s = s := by
  rw [afterAccesses]
  split
  · rename_i more
    rw [stops] at more
    cases more
  · rfl

def read? (s : List Char) : Option Assignment := do
  let rest := afterAccesses (← Reader.name s)
  let body := trimStart (← literal ":=" (trimStart rest))
  let terminated := body.getLast? == some ';'
  let expression := trimEnd (if terminated then body.dropLast else body)
  if expression.contains '\n' then none
  else some { target := consumed s rest, expression, terminated }

end Assignment

def bracketBalance (literalEnd : Option Char) : List Char → Int
  | [] => 0
  | '$' :: c :: rest =>
    match literalEnd with
    | some close => bracketBalance (some close) rest
    | none => bracketBalance none (c :: rest)
  | c :: rest =>
    match literalEnd with
    | some close => bracketBalance (if c = close then none else some close) rest
    | none =>
      if c = '(' ∨ c = '[' then bracketBalance none rest + 1
      else if c = ')' ∨ c = ']' then bracketBalance none rest - 1
      else bracketBalance (stringClose? c) rest

theorem natAbs_bracketBalance_le (literalEnd : Option Char) (s : List Char) :
    (bracketBalance literalEnd s).natAbs ≤ s.length := by
  fun_induction bracketBalance literalEnd s with
  | case1 => exact Nat.zero_le _
  | _ => grind

def waitingWords : List String :=
  ["AND", "OR", "XOR", "MOD", "NOT", "AND_THEN", "OR_ELSE"]

def waitingSigns : List Char :=
  ['+', '-', '*', '/', '=', '<', '>', '&', ',', '(']

def expectsMore (expression : List Char) : Bool :=
  let text := trimEnd expression
  let lastWord := (text.reverse.takeWhile isNameChar).reverse
  text.isEmpty || decide (0 < bracketBalance none text) ||
    text.getLast?.any waitingSigns.contains ||
    waitingWords.any fun word => sameLetters word.toList lastWord

end StructuredText
