import Mathlib.Data.List.Induction
import Mathlib.Data.List.Nodup
import PlotScene.Proofs.Value.Lookup

/-!
# Mappings of pairs

A mapping that is made from pairs under texts has each text once, and pairs with distinct texts make
up the mapping as they stand.
-/

namespace PlotScene.Entries

-- A key that none of the entries has goes to the end.
theorem put_of_absent {es : Entries} {key : Scalar} (h : ∀ e ∈ es, e.1.same key = false)
    (v : Value) : es.put key v = es ++ [(key, v)] := by
  induction es with
  | nil => rfl
  | cons e es ih =>
    obtain ⟨he, hes⟩ := List.forall_mem_cons.mp h
    rw [put, he, if_neg Bool.false_ne_true, ih hes, List.cons_append]

theorem putAll_of_apart {es more : Entries}
    (h : (es ++ more).Pairwise fun a b => a.1.same b.1 = false) : es.putAll more = es ++ more := by
  induction more generalizing es with
  | nil => exact (List.append_nil es).symm
  | cons e more ih =>
    have habsent : ∀ a ∈ es, a.1.same e.1 = false := fun a ha =>
      (List.pairwise_append.mp h).2.2 a ha e List.mem_cons_self
    rw [List.append_cons] at h
    show (es.put e.1 e.2).putAll more = es ++ e :: more
    rw [put_of_absent habsent, ih h, List.append_assoc, List.singleton_append]

theorem ofPairs_concat (pairs : Entries) (e : Scalar × Value) :
    ofPairs (pairs ++ [e]) = (ofPairs pairs).put e.1 e.2 := by
  rw [ofPairs, ofPairs, putAll, List.foldl_append]
  rfl

/-- Entries under texts. -/
def texts (fields : List (String × Value)) : Entries := fields.map fun f => (.str f.1, f.2)

/-- Pairs with distinct texts make up the mapping as they stand. -/
theorem ofPairs_of_nodup {fields : List (String × Value)} (h : (fields.map Prod.fst).Nodup) :
    ofPairs (texts fields) = texts fields := by
  apply putAll_of_apart
  rw [List.nil_append, texts, List.pairwise_map]
  refine (List.pairwise_map.mp h).imp fun hne => ?_
  rw [Scalar.same_str]
  exact beq_false_of_ne hne

theorem exists_put_texts {fields : List (String × Value)} (h : (fields.map Prod.fst).Nodup)
    (name : String) (v : Value) : ∃ fields', (texts fields).put (.str name) v = texts fields' ∧
      (fields'.map Prod.fst).Nodup ∧
      ∀ m ∈ fields'.map Prod.fst, m = name ∨ m ∈ fields.map Prod.fst := by
  induction fields with
  | nil =>
    exact ⟨[(name, v)], rfl, List.nodup_singleton name,
      List.forall_mem_singleton.mpr (Or.inl rfl)⟩
  | cons f fields ih =>
    obtain ⟨hf, hfields⟩ := List.nodup_cons.mp h
    obtain ⟨fields', hput, hnodup, hnames⟩ := ih hfields
    by_cases heq : f.1 = name
    · refine ⟨(f.1, v) :: fields, ?_, h, fun m hm => Or.inr hm⟩
      exact if_pos (by rw [Scalar.same_str, heq, beq_self_eq_true])
    · have hne : ¬ (Scalar.str f.1).same (.str name) = true := by
        rw [Scalar.same_str, beq_iff_eq]
        exact heq
      refine ⟨f :: fields', (if_neg hne).trans (congrArg (List.cons _) hput),
        List.nodup_cons.mpr ⟨fun hmem => ?_, hnodup⟩, ?_⟩
      · exact (hnames _ hmem).elim heq hf
      · exact List.forall_mem_cons.mpr ⟨Or.inr List.mem_cons_self, fun m hm =>
          (hnames m hm).imp_right (List.mem_cons_of_mem _)⟩

-- The pairs are written one after the other, so the last of them comes last.
theorem exists_ofPairs_texts (pairs : List (String × Value)) :
    ∃ fields, ofPairs (texts pairs) = texts fields ∧ (fields.map Prod.fst).Nodup := by
  induction pairs using List.reverseRecOn with
  | nil => exact ⟨[], rfl, List.nodup_nil⟩
  | append_singleton pairs p ih =>
    obtain ⟨fields, heq, hnodup⟩ := ih
    obtain ⟨fields', hput, hnodup', -⟩ := exists_put_texts hnodup p.1 p.2
    refine ⟨fields', ?_, hnodup'⟩
    rw [texts, List.map_append, List.map_singleton, ofPairs_concat, ← texts, heq]
    exact hput

end PlotScene.Entries
