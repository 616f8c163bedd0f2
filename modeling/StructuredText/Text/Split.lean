
set_option autoImplicit false

namespace StructuredText

def consFirst (c : Char) : List (List Char) → List (List Char)
  | [] => [[c]]
  | piece :: pieces => (c :: piece) :: pieces

def splitWhere (cut : Char → Bool) : List Char → List (List Char)
  | [] => [[]]
  | c :: rest => if cut c then [] :: splitWhere cut rest else consFirst c (splitWhere cut rest)

-- A line ends at a newline, and a carriage return right before it belongs to the line end. Text
-- after the last newline is a line of its own unless it is empty.
def lines : List Char → List (List Char)
  | [] => []
  | '\n' :: rest => [] :: lines rest
  | '\r' :: '\n' :: rest => [] :: lines rest
  | c :: rest => consFirst c (lines rest)

def splitAtPair (a b : Char) : List Char → Option (List Char × List Char)
  | x :: y :: rest =>
    if x = a ∧ y = b then some ([], rest)
    else (splitAtPair a b (y :: rest)).map fun (before, after) => (x :: before, after)
  | _ => none

def splitAtChar (close : Char) : List Char → Option (List Char × List Char)
  | [] => none
  | c :: rest =>
    if c = close then some ([], rest)
    else (splitAtChar close rest).map fun (before, after) => (c :: before, after)

theorem splitWhere_ne_nil (cut : Char → Bool) (s : List Char) : splitWhere cut s ≠ [] := by
  cases s with
  | nil => simp [splitWhere]
  | cons c rest =>
    rw [splitWhere]
    split
    · simp
    · cases splitWhere cut rest <;> simp [consFirst]

theorem splitAtPair_eq {a b : Char} {s before after : List Char}
    (h : splitAtPair a b s = some (before, after)) : s = before ++ a :: b :: after := by
  fun_induction splitAtPair a b s generalizing before with
  | case1 => simp_all
  | case2 x y rest hne ih =>
    obtain ⟨⟨p, q⟩, hpq, heq⟩ := Option.map_eq_some_iff.1 h
    simp only [Prod.mk.injEq] at heq
    obtain ⟨rfl, rfl⟩ := heq
    simp [ih hpq]
  | case3 => simp at h

theorem splitAtChar_eq {close : Char} {s before after : List Char}
    (h : splitAtChar close s = some (before, after)) : s = before ++ close :: after := by
  fun_induction splitAtChar close s generalizing before with
  | case1 => simp at h
  | case2 => simp_all
  | case3 c rest hne ih =>
    obtain ⟨⟨p, q⟩, hpq, heq⟩ := Option.map_eq_some_iff.1 h
    simp only [Prod.mk.injEq] at heq
    obtain ⟨rfl, rfl⟩ := heq
    simp [ih hpq]

end StructuredText
