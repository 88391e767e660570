import PlotScene.Json.Writer
import PlotScene.Proofs.Outcome
import PlotScene.Proofs.Value.Strict
import PlotScene.Proofs.Value.Texts

/-!
# Strict values are written

Writing a document refuses a double that is infinite or NaN, an integer with too many digits, an
array and a column.  A strict value that has a text holds none of them at any depth, so it is
written whatever the layout.
-/

namespace PlotScene.Json

theorem scalarChars_of_isStrict {s : Scalar} (h : s.isStrict = true) (ht : s.hasText = true) :
    ∃ cs, scalarChars s = .ok cs := by
  cases s with
  | float x => exact ⟨_, if_pos h⟩
  | int n => exact ⟨_, if_pos ht⟩
  | _ => exact ⟨_, rfl⟩

theorem keyChars_of_isStrict {k : Scalar} (h : k.isStrict = true) (ht : k.hasText = true) :
    ∃ cs, keyChars k = .ok cs := by
  cases k with
  | str s => exact ⟨_, rfl⟩
  | _ =>
    obtain ⟨cs, hcs⟩ := scalarChars_of_isStrict h ht
    exact ⟨_, bind_eq_ok.mpr ⟨cs, hcs, rfl⟩⟩

theorem writeItems_of_forall {l : Layout} {depth : Nat} {vs : List Value}
    (h : ∀ v ∈ vs, ∃ cs, write l depth v = .ok cs) : ∃ css, writeItems l depth vs = .ok css := by
  induction vs with
  | nil => exact ⟨[], rfl⟩
  | cons v vs ih =>
    obtain ⟨hv, hrest⟩ := List.forall_mem_cons.mp h
    obtain ⟨first, hfirst⟩ := hv
    obtain ⟨rest, hrest⟩ := ih hrest
    refine ⟨first :: rest, ?_⟩
    rw [writeItems, hfirst, ok_bind, hrest, ok_bind]
    rfl

theorem writeEntries_of_forall {l : Layout} {depth : Nat} {es : Entries}
    (hk : ∀ e ∈ es, ∃ cs, keyChars e.1 = .ok cs)
    (hv : ∀ e ∈ es, ∃ cs, write l depth e.2 = .ok cs) :
    ∃ css, writeEntries l depth es = .ok css := by
  induction es with
  | nil => exact ⟨[], rfl⟩
  | cons e es ih =>
    obtain ⟨hk, hks⟩ := List.forall_mem_cons.mp hk
    obtain ⟨hv, hvs⟩ := List.forall_mem_cons.mp hv
    obtain ⟨key, hkey⟩ := hk
    obtain ⟨first, hfirst⟩ := hv
    obtain ⟨rest, hrest⟩ := ih hks hvs
    refine ⟨(key ++ ':' :: ' ' :: first) :: rest, ?_⟩
    rw [writeEntries, hkey, ok_bind, hfirst, ok_bind, hrest, ok_bind]
    rfl

theorem write_of_strict {v : Value} (h : v.Strict) (ht : v.hasText = true) (l : Layout)
    (depth : Nat) : ∃ cs, write l depth v = .ok cs := by
  induction h generalizing depth with
  | scalar hs =>
    rw [write]
    exact scalarChars_of_isStrict hs (Value.hasText_scalar _ ▸ ht)
  | list _ ih =>
    have hitems := Value.hasText_list.mp ht
    obtain ⟨css, hcss⟩ := writeItems_of_forall fun v hv => ih v hv (hitems v hv) (depth + 1)
    rw [write, hcss, ok_bind]
    exact ⟨_, rfl⟩
  | map hk _ ih =>
    have hentries := Value.hasText_map.mp ht
    obtain ⟨css, hcss⟩ := writeEntries_of_forall
      (fun e he => keyChars_of_isStrict (hk e he) (hentries e he).1)
      fun e he => ih e he (hentries e he).2 (depth + 1)
    rw [write, hcss, ok_bind]
    exact ⟨_, rfl⟩

/-- A strict value that has a text is written in every layout. -/
theorem document?_of_strict {v : Value} (h : v.Strict) (ht : v.hasText = true) (l : Layout) :
    ∃ text, document? l v = .ok text := by
  obtain ⟨cs, hcs⟩ := write_of_strict h ht l 0
  exact ⟨String.ofList cs, by rw [document?, hcs, ok_bind]; rfl⟩

end PlotScene.Json
