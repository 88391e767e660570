/-!
# Parts of a text

A text is cut at every separator; without a separator it is a single part.
-/

namespace PlotScene.Text

/-- The parts of a text between its separators. -/
def parts (separator : Char) : List Char → List (List Char)
  | [] => [[]]
  | c :: cs =>
      if c = separator then [] :: parts separator cs
      else
        match parts separator cs with
        | [] => [[c]]
        | p :: ps => (c :: p) :: ps

-- A text always has a part, so the last case of the definition is that of a longer first part.
theorem parts_ne_nil (separator : Char) (s : List Char) : parts separator s ≠ [] := by
  cases s with
  | nil => simp [parts]
  | cons c cs =>
      simp only [parts]
      split
      · simp
      · split <;> simp

end PlotScene.Text
