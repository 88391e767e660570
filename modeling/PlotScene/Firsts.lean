/-!
# First occurrences

Labels, palette entries, named scales and data sources are kept once each, in the order of their
first occurrence.
-/

namespace PlotScene

/-- The items whose key is neither among `seen` nor that of an earlier item. -/
def firstsAfter {α κ : Type} [BEq κ] (key : α → κ) : List κ → List α → List α
  | _, [] => []
  | seen, x :: xs =>
      if seen.contains (key x) then firstsAfter key seen xs
      else x :: firstsAfter key (key x :: seen) xs

/-- The first item for each key. -/
def firstsBy {α κ : Type} [BEq κ] (key : α → κ) (xs : List α) : List α :=
  firstsAfter key [] xs

/-- Each item once. -/
def firsts {α : Type} [BEq α] (xs : List α) : List α :=
  firstsBy id xs

end PlotScene
