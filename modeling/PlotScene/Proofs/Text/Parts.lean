import Mathlib.Data.List.DropRight
import PlotScene.Text.Blank
import PlotScene.Text.Parts

/-!
# Parts of a text and their ends

The parts of a text have no separator in them, and a part that was trimmed has no blank at either
end.
-/

namespace PlotScene.Text

/-! ## 1. Parts -/

theorem parts_eq_splitOn (separator : Char) (s : List Char) :
    parts separator s = s.splitOn separator := by
  induction s with
  | nil => rfl
  | cons c cs ih =>
    rw [parts, ih, List.splitOn, List.splitOn, List.splitOnP_cons_eq_if_modifyHead]
    by_cases hc : c = separator
    · rw [if_pos hc, if_pos (beq_iff_eq.mpr hc)]
    · rw [if_neg hc, if_neg (by simpa using hc)]
      cases hps : List.splitOnP (· == separator) cs with
      | nil => exact absurd hps (List.splitOnP_ne_nil _ _)
      | cons p ps => rfl

-- What stands between separators has none.
theorem not_mem_of_mem_parts {separator : Char} {s : List Char} :
    ∀ p ∈ parts separator s, separator ∉ p := by
  induction s with
  | nil => simp [parts]
  | cons c cs ih =>
    rw [parts]
    split
    next => exact List.forall_mem_cons.mpr ⟨List.not_mem_nil, ih⟩
    next hc =>
      cases hps : parts separator cs with
      | nil => exact absurd hps (parts_ne_nil separator cs)
      | cons p ps =>
        rw [hps] at ih
        obtain ⟨hp, hps⟩ := List.forall_mem_cons.mp ih
        exact List.forall_mem_cons.mpr ⟨by simp [hp, Ne.symm hc], hps⟩

/-! ## 2. Ends -/

/-- A text without a blank at its front or at its back. -/
structure Tight (s : List Char) : Prop where
  front : ∀ c, s.head? = some c → isBlank c = false
  back : ∀ c, s.getLast? = some c → isBlank c = false

theorem trim_eq (s : List Char) : trim s = (s.dropWhile isBlank).rdropWhile isBlank := rfl

theorem mem_of_mem_trim {s : List Char} {c : Char} (h : c ∈ trim s) : c ∈ s := by
  rw [trim_eq] at h
  exact (List.dropWhile_suffix isBlank).subset ((List.rdropWhile_prefix isBlank _).subset h)

-- What is dropped at the back leaves the front as it is, unless nothing is left.
theorem tight_trim (s : List Char) : Tight (trim s) := by
  rw [trim_eq]
  constructor
  · intro c hc
    obtain ⟨rest, hrest⟩ := List.rdropWhile_prefix isBlank (s.dropWhile isBlank)
    have hfront := List.head?_dropWhile_not isBlank s
    rw [← hrest, List.head?_append, hc] at hfront
    exact hfront
  · intro c hc
    have hne : (s.dropWhile isBlank).rdropWhile isBlank ≠ [] := by
      intro hnil
      rw [hnil] at hc
      cases hc
    rw [← List.getLast_of_getLast?_eq_some hc]
    exact Bool.eq_false_iff.mpr (List.rdropWhile_last_not isBlank _ hne)

theorem trim_of_tight {s : List Char} (h : Tight s) : trim s = s := by
  have hfront : s.dropWhile isBlank = s := by
    cases s with
    | nil => rfl
    | cons c cs => exact List.dropWhile_cons_of_neg (by simp [h.front c rfl])
  rw [trim_eq, hfront, List.rdropWhile_eq_self_iff]
  intro hne
  simp [h.back _ (List.getLast?_eq_some_getLast hne)]

end PlotScene.Text
