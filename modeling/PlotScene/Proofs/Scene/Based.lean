import PlotScene.Proofs.Firsts
import PlotScene.Proofs.Reference.Scope

/-!
# Data sources that build on earlier ones

A list of data sources is based when every source builds on none or on one before it.  Lists that
are based can be put one after the other, and of several sources with one name the later ones can be
dropped.
-/

namespace PlotScene

open Reference

/-- Every source has a text as its name and builds on none, on one before it, or on a known one. -/
inductive Based : List String → List Value → Prop where
  | nil {known : List String} : Based known []
  | cons {known : List String} {v : Value} {vs : List Value} {n : String} :
      v.get? "name" = some (.str n) →
      (v.getD "source" = .null ∨ ∃ u ∈ known, v.getD "source" = .str u) →
      Based (n :: known) vs → Based known (v :: vs)

theorem nameOf_of_get? {v : Value} {n : String} (h : v.get? "name" = some (.str n)) :
    nameOf v = .str n := by
  rw [nameOf, Value.getD_of_get? h]
  rfl

theorem str_beq_str (a b : String) : ((Scalar.str a == Scalar.str b) = true) ↔ a = b := by
  show (a == b) = true ↔ a = b
  rw [beq_iff_eq]

theorem declared_of_mem {vs : List Value} {v : Value} {n : String} (hv : v ∈ vs)
    (hn : v.get? "name" = some (.str n)) : Declared vs (.str n) :=
  ⟨v, hv, by rw [nameOf_of_get? hn]; exact (str_beq_str n n).mpr rfl⟩

namespace Based

variable {known known' : List String} {vs ws : List Value}

theorem mono (h : Based known vs) (hsub : ∀ u ∈ known, u ∈ known') : Based known' vs := by
  induction h generalizing known' with
  | nil => exact nil
  | @cons known v vs n hn hb _ ih =>
    refine cons hn (hb.imp id fun ⟨u, hu, hv⟩ => ⟨u, hsub u hu, hv⟩) (ih fun u hu => ?_)
    rcases List.mem_cons.mp hu with rfl | hu
    · exact List.mem_cons_self
    · exact List.mem_cons_of_mem _ (hsub u hu)

theorem append (h : Based known vs) (hw : Based known ws) : Based known (vs ++ ws) := by
  induction h with
  | nil => exact hw
  | cons hn hb _ ih =>
    exact cons hn hb (ih (hw.mono fun u hu => List.mem_cons_of_mem _ hu))

theorem exists_name (h : Based known vs) {v : Value} (hv : v ∈ vs) :
    ∃ n, v.get? "name" = some (.str n) := by
  induction h with
  | nil => cases hv
  | cons hn _ _ ih =>
    rcases List.mem_cons.mp hv with rfl | hv
    · exact ⟨_, hn⟩
    · exact ih hv

-- Dropping sources whose name has been seen keeps a list based, as long as every name that was
-- seen is still known.
theorem firsts (h : Based known vs) {seen : List Scalar} (hknown : ∀ u ∈ known, u ∈ known')
    (hseen : ∀ u, seen.contains (.str u) = true → u ∈ known') :
    Based known' (firstsAfter nameOf seen vs) := by
  induction h generalizing seen known' with
  | nil => exact nil
  | @cons known v vs n hn hb _ ih =>
    rw [firstsAfter_cons, nameOf_of_get? hn]
    split
    next hs =>
      refine ih (fun u hu => ?_) hseen
      rcases List.mem_cons.mp hu with rfl | hu
      · exact hseen u hs
      · exact hknown u hu
    next =>
      refine cons hn (hb.imp id fun ⟨u, hu, hv⟩ => ⟨u, hknown u hu, hv⟩)
        (ih (fun u hu => ?_) fun u hu => ?_)
      · rcases List.mem_cons.mp hu with rfl | hu
        · exact List.mem_cons_self
        · exact List.mem_cons_of_mem _ (hknown u hu)
      · rw [List.contains_cons, Bool.or_eq_true, str_beq_str] at hu
        rcases hu with rfl | hu
        · exact List.mem_cons_self
        · exact List.mem_cons_of_mem _ (hseen u hu)

-- In a based list the base of a source is the name of a source before it.
theorem declared (h : Based known vs) {before after : List Value} {s : Value}
    (heq : vs = before ++ s :: after) (hs : (s.getD "source").isNull = false) :
    Declared before (scalarOf (s.getD "source")) ∨
      ∃ u ∈ known, scalarOf (s.getD "source") = .str u := by
  induction h generalizing before with
  | nil => simp at heq
  | @cons known v vs n hn hb _ ih =>
    cases before with
    | nil =>
      obtain ⟨rfl, rfl⟩ := List.cons.inj heq
      rcases hb with hb | ⟨u, hu, hb⟩
      · rw [hb] at hs
        cases hs
      · exact Or.inr ⟨u, hu, by rw [hb]; rfl⟩
    | cons w before =>
      obtain ⟨rfl, rfl⟩ := List.cons.inj heq
      rcases ih rfl with ⟨d, hd, h⟩ | ⟨u, hu, h⟩
      · exact Or.inl ⟨d, List.mem_cons_of_mem _ hd, h⟩
      · rcases List.mem_cons.mp hu with rfl | hu
        · rw [h]
          exact Or.inl (declared_of_mem List.mem_cons_self hn)
        · exact Or.inr ⟨u, hu, h⟩

end Based

-- A part with a text as its name is kept, or one before it with that name.
theorem declared_firsts {vs : List Value} {v : Value} {n : String} (hv : v ∈ vs)
    (hn : v.get? "name" = some (.str n)) (seen : List Scalar) :
    seen.contains (.str n) = true ∨ Declared (firstsAfter nameOf seen vs) (.str n) := by
  have hname := nameOf_of_get? hn
  have h : _ ∨ ∃ w ∈ firstsAfter nameOf seen vs, (nameOf v == nameOf w) = true :=
    exists_mem_firstsAfter seen hv (by rw [hname]; exact (str_beq_str n n).mpr rfl)
  rw [hname] at h
  exact h.imp id fun ⟨w, hw, he⟩ => ⟨w, hw, he⟩

end PlotScene
