import PlotScene.Files
import PlotScene.Proofs.Text.Parts

/-!
# Paths are read off their texts

The text of a path leads where the path does: its names stand between slashes, and none of them has
a slash or is one of those that do not count.
-/

namespace PlotScene

namespace Path

/-! ## 1. Paths and their texts -/

/-- Every name of a path is one that can stand between slashes. -/
def Formed (p : Path) : Prop :=
  ∀ name ∈ p.names, name ≠ "" ∧ name ≠ "." ∧ '/' ∉ name.toList

theorem formed_ofText (text : String) : (ofText text).Formed := by
  intro name hname
  obtain ⟨hpart, hkept⟩ := List.mem_filter.mp hname
  obtain ⟨p, hp, rfl⟩ := List.mem_map.mp hpart
  rw [String.toList_ofList]
  simp only [Bool.and_eq_true, bne_iff_ne] at hkept
  exact ⟨hkept.1, hkept.2, Text.not_mem_of_mem_parts p hp⟩

theorem Formed.join {p : Path} (h : p.Formed) (text : String) : (p.join text).Formed := by
  have htext := formed_ofText text
  rw [Path.join]
  split
  · exact htext
  · exact List.forall_mem_append.mpr ⟨h, htext⟩

theorem namesOf_intercalate {names : List String}
    (h : ∀ name ∈ names, name ≠ "" ∧ name ≠ "." ∧ '/' ∉ name.toList) (hne : names ≠ []) :
    namesOf (String.intercalate "/" names) = names := by
  have hslash : ∀ cs ∈ names.map String.toList, '/' ∉ cs := by
    intro cs hcs
    obtain ⟨name, hname, rfl⟩ := List.mem_map.mp hcs
    exact (h name hname).2.2
  have hkept : ∀ name ∈ names, (name != "" && name != ".") = true := by
    intro name hname
    obtain ⟨hempty, hdot, -⟩ := h name hname
    simp [hempty, hdot]
  rw [namesOf, String.toList_intercalate, Text.parts_eq_splitOn]
  rw [show "/".toList = ['/'] from rfl, List.splitOn_intercalate _ hslash (by simpa using hne)]
  rw [List.map_map, List.filter_eq_self.mpr]
  · simp [Function.comp_def]
  · simpa [Function.comp_def] using hkept

theorem namesOf_slash (text : String) : namesOf ("/" ++ text) = namesOf text := by
  have hparts : Text.parts '/' ("/" ++ text).toList = [] :: Text.parts '/' text.toList := by
    rw [String.toList_append]
    exact if_pos rfl
  rw [namesOf, hparts, List.map_cons, List.filter_cons_of_neg (by decide)]
  rfl

/-- A path is read off its text. -/
theorem ofText_text {p : Path} (h : p.Formed) : ofText p.text = p := by
  obtain ⟨absolute, names⟩ := p
  cases names with
  | nil => cases absolute <;> decide
  | cons name names =>
    have hnames := namesOf_intercalate h (List.cons_ne_nil name names)
    cases absolute with
    | true =>
      rw [text, if_pos rfl, ofText, namesOf_slash, hnames, String.toList_append]
      rfl
    | false =>
      obtain ⟨hempty, -, hslash⟩ := h name List.mem_cons_self
      have hhead : ((String.intercalate "/" (name :: names)).toList.head? == some '/') = false := by
        rw [String.toList_intercalate]
        cases hname : name.toList with
        | nil => exact absurd (String.toList_eq_nil_iff.mp hname) hempty
        | cons c cs =>
          rw [hname] at hslash
          have hc : c ≠ '/' := fun hc => hslash (hc ▸ List.mem_cons_self)
          cases names <;> simp [hname, List.intercalate, hc]
      rw [text, ofText]
      simp only [Bool.false_eq_true, if_false, List.isEmpty_cons]
      rw [hhead, hnames]

end Path

end PlotScene
