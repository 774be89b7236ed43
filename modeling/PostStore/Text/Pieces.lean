/-!
# Pieces

A list cut into the pieces between its marks, as lines between line feeds or names between slashes.
-/

namespace PostStore

/-- Splits a list at every element that is a mark; the marks are dropped. -/
def splitAtMarks {α : Type} (isMark : α → Bool) : List α → List (List α)
  | [] => [[]]
  | a :: rest =>
    match isMark a, splitAtMarks isMark rest with
    | true, pieces => [] :: pieces
    | false, [] => [[a]]
    | false, piece :: pieces => (a :: piece) :: pieces

end PostStore
