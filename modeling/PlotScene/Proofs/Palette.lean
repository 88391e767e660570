import PlotScene.Palette
import PlotScene.Proofs.Firsts
import PlotScene.Proofs.Text.Parts

/-!
# Palettes have a canonical form

The colors of a palette text are its entries, each where it first occurs.  Such a list is written
with commas and read back unchanged, and no other list of colors is.
-/

namespace PlotScene.Palette

/-- A color that can stand between the commas of a palette text. -/
structure IsEntry (color : String) : Prop where
  nonempty : color ≠ ""
  noComma : ',' ∉ color.toList
  tight : Text.Tight color.toList

/-- Colors that differ from each other and can all stand in a palette text. -/
structure Canonical (colors : List String) : Prop where
  nodup : colors.Nodup
  entries : ∀ color ∈ colors, IsEntry color

/-- What stands between the commas of a text, trimmed and as often as it stands there, but for
empty parts. -/
def entries (raw : String) : List String :=
  (((raw.toList.splitOn ',').map Text.trim).filter (· ≠ [])).map String.ofList

/-! ## 1. Entries -/

theorem read_eq (raw : String) : read raw = firsts (entries raw) := by
  rw [read, Text.parts_eq_splitOn]
  rfl

theorem mem_entries {raw color : String} : color ∈ entries raw ↔
    ∃ part ∈ raw.toList.splitOn ',', Text.trim part ≠ [] ∧
      color = String.ofList (Text.trim part) := by
  simp only [entries, List.mem_map, List.mem_filter, decide_eq_true_eq]
  constructor
  · rintro ⟨_, ⟨⟨part, hpart, rfl⟩, hne⟩, rfl⟩
    exact ⟨part, hpart, hne, rfl⟩
  · rintro ⟨part, hpart, hne, rfl⟩
    exact ⟨_, ⟨⟨part, hpart, rfl⟩, hne⟩, rfl⟩

theorem isEntry_of_mem_entries {raw color : String} (h : color ∈ entries raw) :
    IsEntry color := by
  obtain ⟨part, hpart, hne, rfl⟩ := mem_entries.mp h
  rw [← Text.parts_eq_splitOn] at hpart
  refine ⟨fun hempty => hne ?_, ?_, ?_⟩
  · rw [← String.toList_ofList (l := Text.trim part), hempty]
    rfl
  · rw [String.toList_ofList]
    exact fun hcomma => Text.not_mem_of_mem_parts part hpart (Text.mem_of_mem_trim hcomma)
  · rw [String.toList_ofList]
    exact Text.tight_trim part

theorem entries_eq_nil_iff {raw : String} :
    entries raw = [] ↔ ∀ part ∈ raw.toList.splitOn ',', Text.trim part = [] := by
  rw [entries, List.map_eq_nil_iff, List.filter_eq_nil_iff, List.forall_mem_map]
  simp

-- Every entry is a part of its own, and trimming leaves it as it is.
theorem entries_text {colors : List String} (h : ∀ color ∈ colors, IsEntry color) :
    entries (text colors) = colors := by
  by_cases hne : colors = []
  · rw [hne]
    decide
  have hparts : (text colors).toList.splitOn ',' = colors.map String.toList := by
    rw [text, String.toList_intercalate]
    exact List.splitOn_intercalate ',' (List.forall_mem_map.mpr fun c hc => (h c hc).noComma)
      (by simpa using hne)
  have htrim : (colors.map String.toList).map Text.trim = colors.map String.toList := by
    rw [List.map_map]
    exact List.map_congr_left fun color hcolor => Text.trim_of_tight (h color hcolor).tight
  have hkept : (colors.map String.toList).filter (· ≠ []) = colors.map String.toList := by
    refine List.filter_eq_self.mpr (List.forall_mem_map.mpr fun color hcolor => ?_)
    simpa using (h color hcolor).nonempty
  rw [entries, hparts, htrim, hkept, List.map_map]
  simp [Function.comp_def]

/-! ## 2. Canonical lists -/

theorem canonical_read (raw : String) : Canonical (read raw) := by
  rw [read_eq]
  exact ⟨nodup_firsts _, fun color hcolor => isEntry_of_mem_entries (mem_firsts.mp hcolor)⟩

theorem read_text {colors : List String} (h : Canonical colors) : read (text colors) = colors := by
  rw [read_eq, entries_text h.entries, firsts_of_nodup h.nodup]

theorem read_text_iff {colors : List String} : read (text colors) = colors ↔ Canonical colors :=
  ⟨fun h => h ▸ canonical_read (text colors), read_text⟩

theorem readOr_eq (raw : String) (otherwise : List String) :
    readOr raw otherwise = if read raw = [] then otherwise else read raw := by
  rw [readOr]
  cases read raw <;> rfl

theorem read_eq_nil_iff {raw : String} :
    read raw = [] ↔ ∀ part ∈ raw.toList.splitOn ',', Text.trim part = [] := by
  rw [← entries_eq_nil_iff, List.eq_nil_iff_forall_not_mem, List.eq_nil_iff_forall_not_mem,
    read_eq]
  simp only [mem_firsts]

theorem canonical_readOr (raw : String) {otherwise : List String} (h : Canonical otherwise) :
    Canonical (readOr raw otherwise) := by
  rw [readOr_eq]
  split
  · exact h
  · exact canonical_read raw

/-- A palette text is read as its trimmed parts that are not empty, each where it first occurs, and
these are canonical.  The canonical lists are those that are written and read back unchanged, so a
palette that was read once is read again as itself.  Other colors take the place of a palette
exactly when all parts of its text are blank, and they too are read again as themselves. -/
theorem read_canonical (raw : String) :
    Canonical (read raw) ∧
    read raw = foremost id (entries raw) ∧
    (∀ part ∈ raw.toList.splitOn ',', Text.trim part ≠ [] →
      String.ofList (Text.trim part) ∈ read raw) ∧
    (∀ colors, read (text colors) = colors ↔ Canonical colors) ∧
    ∀ otherwise,
      ((∀ part ∈ raw.toList.splitOn ',', Text.trim part = []) → readOr raw otherwise = otherwise) ∧
      ((∃ part ∈ raw.toList.splitOn ',', Text.trim part ≠ []) →
        readOr raw otherwise = read raw) ∧
      readOr (text (read raw)) otherwise = readOr raw otherwise ∧
      (Canonical otherwise →
        read (text (readOr raw otherwise)) = readOr raw otherwise) := by
  refine ⟨canonical_read raw, ?_, fun part hpart hne => ?_, fun colors => read_text_iff,
    fun otherwise => ⟨fun hblank => ?_, ?_, ?_, fun h => ?_⟩⟩
  · have hforemost : firstsAfter id [] (entries raw) = _ := firstsAfter_eq_foremost [] (entries raw)
    rw [read_eq, firsts, firstsBy, hforemost]
    simp
  · rw [read_eq, mem_firsts, mem_entries]
    exact ⟨part, hpart, hne, rfl⟩
  · rw [readOr_eq, if_pos (read_eq_nil_iff.mpr hblank)]
  · rintro ⟨part, hpart, hne⟩
    rw [readOr_eq, if_neg fun hnil => hne (read_eq_nil_iff.mp hnil part hpart)]
  · rw [readOr_eq, readOr_eq, read_text (canonical_read raw)]
  · exact read_text (canonical_readOr raw h)

-- Blanks of any kind are trimmed, and a color that comes again does not count.
example : read " #111,\u3000#222,#111 ,, #333" = ["#111", "#222", "#333"] := by decide

end PlotScene.Palette
