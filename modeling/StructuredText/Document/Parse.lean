import StructuredText.Document.State

set_option autoImplicit false

namespace StructuredText

structure Progress where
  count : Nat := 0
  comment : Option OpenComment := none
  state : State := {}

namespace Progress

def line (progress : Progress) (raw : List Char) : Progress :=
  let number := progress.count + 1
  let (stripped, comment) := strip progress.comment raw number
  let state :=
    if stripped.isEmpty then progress.state else progress.state.line ⟨raw, stripped, number⟩
  { count := number, comment, state }

def finish (progress : Progress) : Document :=
  let unterminated := progress.comment.map fun _ => ⟨.unterminatedComment, progress.count, none⟩
  progress.state.finish.report unterminated.toList

end Progress

def parse (source : String) : Document :=
  ((lines source.toList).foldl Progress.line {}).finish

end StructuredText
