import Mathlib.Algebra.Ring.Parity
import Mathlib.Data.List.DropRight
import Mathlib.Data.List.Forall2
import Mathlib.Data.List.Induction
import PlotScene.Proofs.Pairwise
import PlotScene.Scene.Selection

/-!
# The selection after a run of events

What is selected can be read off the events without running them: they begin anew with every clear
and every plain click, and after the last of these a value is selected or not by turns with each
click with shift on it.  The selected values stand in the order in which they were last added.
-/

namespace PlotScene

/-- Among the values that fulfil `P`, being the same is an equivalence. -/
structure Value.Equated (P : Value → Prop) : Prop where
  refl : ∀ v, P v → v.same v = true
  symm : ∀ v w, P v → P w → v.same w = true → w.same v = true
  trans : ∀ u v w, P u → P v → P w → u.same v = true → v.same w = true → u.same w = true

def Value.IsText (v : Value) : Prop :=
  ∃ text, v = .str text

theorem Value.equated_isText : Value.Equated Value.IsText := by
  have hsame (s t : String) : (Value.str s).same (.str t) = true ↔ s = t := by
    rw [Value.same, Scalar.same_str, beq_iff_eq]
  refine ⟨?_, ?_, ?_⟩
  · rintro v ⟨s, rfl⟩
    exact (hsame s s).mpr rfl
  · rintro v w ⟨s, rfl⟩ ⟨t, rfl⟩ h
    exact (hsame t s).mpr ((hsame s t).mp h).symm
  · rintro u v w ⟨r, rfl⟩ ⟨s, rfl⟩ ⟨t, rfl⟩ h h'
    exact (hsame r t).mpr (((hsame r s).mp h).trans ((hsame s t).mp h'))

/-! ## 1. Histories -/

namespace SelectionEvent

/-- Whether nothing that happened before an event matters after it. -/
def resets : SelectionEvent → Bool
  | .click _ true => false
  | .click _ false | .clear => true

/-- Whether an event is a click on this value. -/
def clicks (v : Value) : SelectionEvent → Bool
  | .click w _ => w.same v
  | .clear => false

/-- The events after the last clear or plain click, all of which are clicks with shift. -/
def sinceReset (es : List SelectionEvent) : List SelectionEvent :=
  es.rtakeWhile fun e => !e.resets

/-- The last clear or plain click. -/
def lastReset? (es : List SelectionEvent) : Option SelectionEvent :=
  (es.filter resets).getLast?

/-- The last plain click is on the value, or an odd number of clicks with shift after it is, but not
both. -/
def Selects (es : List SelectionEvent) (v : Value) : Prop :=
  Xor ((lastReset? es).any (clicks v) = true) (Odd ((sinceReset es).countP (clicks v)))

/-- A click is on a value that fulfils `P`. -/
def Within (P : Value → Prop) : SelectionEvent → Prop
  | .click v _ => P v
  | .clear => True

/-- The event at this place is a click on the value, after which the value is selected. -/
structure AddedAt (es : List SelectionEvent) (i : Nat) (v : Value) : Prop where
  click : es[i]?.any (clicks v) = true
  selects : Selects (es.take (i + 1)) v

/-- The event at this place was the last one to add the value, which is the one that was clicked. -/
structure LastAddedAt (es : List SelectionEvent) (i : Nat) (v : Value) : Prop where
  value : ∃ shift, es[i]? = some (.click v shift)
  added : AddedAt es i v
  last : ∀ j, i < j → ¬ AddedAt es j v

/-! ## 2. One more event -/

variable {es : List SelectionEvent} {v w : Value}

theorem selects_nil (v : Value) : ¬ Selects [] v := by
  rintro (⟨h, -⟩ | ⟨h, -⟩)
  · cases h
  · exact absurd h Nat.not_odd_zero

theorem selects_concat_of_resets {e : SelectionEvent} (h : e.resets = true) :
    Selects (es ++ [e]) v ↔ e.clicks v = true := by
  have hlast : lastReset? (es ++ [e]) = some e := by
    rw [lastReset?, List.filter_append, List.filter_cons_of_pos h, List.filter_nil,
      List.getLast?_concat]
  have hsince : sinceReset (es ++ [e]) = [] :=
    List.rtakeWhile_concat_neg _ _ _ (by simp [h])
  rw [Selects, hlast, hsince]
  simp [Xor]

theorem selects_concat_shift :
    Selects (es ++ [.click w true]) v ↔ Xor (Selects es v) (w.same v = true) := by
  have hlast : lastReset? (es ++ [.click w true]) = lastReset? es := by
    rw [lastReset?, List.filter_append]
    exact congrArg List.getLast? (List.append_nil _)
  have hsince : sinceReset (es ++ [.click w true]) = sinceReset es ++ [.click w true] :=
    List.rtakeWhile_concat_pos _ _ _ rfl
  rw [Selects, hlast, hsince, List.countP_append, List.countP_singleton, Selects, clicks]
  by_cases hw : w.same v = true
  · rw [if_pos hw, Nat.odd_add_one]
    simp only [hw, Xor]
    tauto
  · rw [if_neg hw]
    simp [hw, Xor]

-- What is to come changes nothing about what was added before.
theorem addedAt_concat_iff {e : SelectionEvent} {i : Nat} (hi : i < es.length) :
    AddedAt (es ++ [e]) i v ↔ AddedAt es i v := by
  have hevent : (es ++ [e])[i]? = es[i]? := List.getElem?_append_left hi
  have htake : (es ++ [e]).take (i + 1) = es.take (i + 1) :=
    List.take_append_of_le_length hi
  constructor
  · rintro ⟨hclick, hselects⟩
    exact ⟨hevent ▸ hclick, htake ▸ hselects⟩
  · rintro ⟨hclick, hselects⟩
    exact ⟨hevent ▸ hclick, htake ▸ hselects⟩

theorem AddedAt.lt {i : Nat} (h : AddedAt es i v) : i < es.length := by
  by_contra hle
  have hclick := h.click
  rw [List.getElem?_eq_none (Nat.le_of_not_lt hle)] at hclick
  cases hclick

-- An event on another value does not add this one.
theorem LastAddedAt.concat {i : Nat} (h : LastAddedAt es i v) {e : SelectionEvent}
    (he : e.clicks v = false) : LastAddedAt (es ++ [e]) i v := by
  have hi := h.added.lt
  obtain ⟨shift, hshift⟩ := h.value
  refine ⟨⟨shift, ?_⟩, (addedAt_concat_iff hi).mpr h.added, fun j hj hadded => ?_⟩
  · rw [List.getElem?_append_left hi, hshift]
  · rcases Nat.lt_or_ge j es.length with hlt | hge
    · exact h.last j hj ((addedAt_concat_iff hlt).mp hadded)
    · have hlen := hadded.lt
      rw [List.length_append, List.length_singleton] at hlen
      obtain rfl : j = es.length := by omega
      have hclick := hadded.click
      rw [List.getElem?_concat_length, Option.any_some, he] at hclick
      cases hclick

theorem lastAddedAt_concat_click {shift : Bool} (hv : v.same v = true)
    (h : Selects (es ++ [.click v shift]) v) :
    LastAddedAt (es ++ [.click v shift]) es.length v := by
  have hevent : (es ++ [.click v shift])[es.length]? = some (.click v shift) :=
    List.getElem?_concat_length
  have hall : (es ++ [click v shift]).take (es.length + 1) = es ++ [click v shift] :=
    List.take_of_length_le (by simp)
  refine ⟨⟨shift, hevent⟩, ⟨?_, ?_⟩, fun j hj hadded => ?_⟩
  · rw [hevent]
    exact hv
  · rw [hall]
    exact h
  · have hlen := hadded.lt
    rw [List.length_append, List.length_singleton] at hlen
    omega

end SelectionEvent

namespace Selection

open SelectionEvent

theorem contains_iff {s : Selection} {v : Value} :
    s.contains v = true ↔ ∃ w ∈ s.selected, v.same w = true := by
  rw [contains, List.any_eq_true]

section

variable {P : Value → Prop} (hP : Value.Equated P) {s : Selection}
  (hs : ∀ w ∈ s.selected, P w) {v w : Value} (hv : P v) (hw : P w)
include hP hs hv hw

theorem contains_congr (h : w.same v = true) : s.contains v = true ↔ s.contains w = true := by
  rw [contains_iff, contains_iff]
  constructor
  · rintro ⟨x, hx, hvx⟩
    exact ⟨x, hx, hP.trans w v x hw hv (hs x hx) h hvx⟩
  · rintro ⟨x, hx, hwx⟩
    exact ⟨x, hx, hP.trans v w x hv hw (hs x hx) (hP.symm w v hw hv h) hwx⟩

/-- A click with shift turns the clicked value, and no other. -/
theorem contains_apply_shift : (s.apply (.click w true)).contains v = true ↔
    Xor (s.contains v = true) (w.same v = true) := by
  have hcongr := contains_congr hP hs hv hw
  rw [apply]
  split
  next hin =>
    have hkept : (∃ x ∈ s.selected.filter fun x => !x.same w, v.same x = true) ↔
        s.contains v = true ∧ ¬ w.same v = true := by
      simp only [List.mem_filter, Bool.not_eq_true']
      constructor
      · rintro ⟨x, ⟨hx, hne⟩, hvx⟩
        refine ⟨contains_iff.mpr ⟨x, hx, hvx⟩, fun hwv => ?_⟩
        have hwx := hP.trans w v x hw hv (hs x hx) hwv hvx
        rw [hP.symm w x hw (hs x hx) hwx] at hne
        cases hne
      · rintro ⟨hin, hne⟩
        obtain ⟨x, hx, hvx⟩ := contains_iff.mp hin
        refine ⟨x, ⟨hx, ?_⟩, hvx⟩
        by_contra hxw
        rw [Bool.not_eq_false] at hxw
        exact hne (hP.symm v w hv hw (hP.trans v x w hv (hs x hx) hw hvx hxw))
    rw [contains_iff, hkept]
    grind [Xor]
  next hout =>
    have hadded : (∃ x ∈ s.selected ++ [w], v.same x = true) ↔
        s.contains v = true ∨ w.same v = true := by
      rw [contains_iff]
      simp only [List.mem_append, List.mem_singleton, or_and_right, exists_or, exists_eq_left]
      exact or_congr Iff.rfl ⟨hP.symm v w hv hw, hP.symm w v hw hv⟩
    rw [contains_iff, hadded]
    grind [Xor]

end

/-! ## 3. Runs -/

/-- What a selection says about the events that led to it. -/
structure Records (P : Value → Prop) (es : List SelectionEvent) (s : Selection) : Prop where
  within : ∀ v ∈ s.selected, P v
  distinct : s.selected.Pairwise fun v w => v.same w = false
  selects : ∀ v, P v → (s.contains v = true ↔ Selects es v)
  ordered : ∃ places : List Nat, places.Pairwise (· < ·) ∧
    List.Forall₂ (LastAddedAt es) places s.selected

section

variable {P : Value → Prop} (hP : Value.Equated P) {es : List SelectionEvent} {s : Selection}
include hP

omit hP in
theorem records_clear (s : Selection) : Records P (es ++ [.clear]) (s.apply .clear) := by
  refine ⟨fun v hv => (List.not_mem_nil hv).elim, .nil, fun v _ => ?_, [], .nil, .nil⟩
  rw [selects_concat_of_resets rfl]
  rfl

theorem records_plain (s : Selection) {w : Value} (hw : P w) :
    Records P (es ++ [.click w false]) (s.apply (.click w false)) := by
  have hself : Selects (es ++ [.click w false]) w :=
    (selects_concat_of_resets rfl).mpr (hP.refl w hw)
  refine ⟨List.forall_mem_singleton.mpr hw, List.pairwise_singleton _ _, fun v hv => ?_,
    [es.length], List.pairwise_singleton _ _,
    .cons (lastAddedAt_concat_click (hP.refl w hw) hself) .nil⟩
  rw [selects_concat_of_resets rfl, contains_iff]
  constructor
  · rintro ⟨x, hx, hvx⟩
    obtain rfl := List.mem_singleton.mp hx
    exact hP.symm v x hv hw hvx
  · exact fun hwv => ⟨w, List.mem_singleton_self w, hP.symm w v hw hv hwv⟩

theorem records_shift (h : Records P es s) {w : Value} (hw : P w) :
    Records P (es ++ [.click w true]) (s.apply (.click w true)) := by
  have hselects : ∀ v, P v →
      ((s.apply (.click w true)).contains v = true ↔ Selects (es ++ [.click w true]) v) := by
    intro v hv
    rw [contains_apply_shift hP h.within hv hw, selects_concat_shift, Xor, Xor, h.selects v hv]
  obtain ⟨places, hincreasing, hplaces⟩ := h.ordered
  by_cases hin : s.contains w = true
  · -- The value is taken away, and the others keep their places.
    have happly : s.apply (.click w true) = ⟨s.selected.filter fun x => !x.same w⟩ :=
      if_pos hin
    rw [happly] at hselects ⊢
    obtain ⟨kept, hsub, hkept⟩ := exists_forall₂_filter hplaces fun x => !x.same w
    have hwithin : ∀ v ∈ s.selected.filter fun x => !x.same w, P v :=
      fun v hv => h.within v (List.mem_of_mem_filter hv)
    refine ⟨hwithin, h.distinct.filter _, hselects, kept, hincreasing.sublist hsub, ?_⟩
    refine forall₂_imp_of_mem hkept fun i _ v hv hlast => hlast.concat ?_
    have hne := List.of_mem_filter hv
    by_contra hwv
    rw [Bool.not_eq_false] at hwv
    rw [hP.symm w v hw (hwithin v hv) hwv] at hne
    cases hne
  · -- The value comes last, as its place does.
    have happly : s.apply (.click w true) = ⟨s.selected ++ [w]⟩ := if_neg hin
    have hnew : ∀ v ∈ s.selected, w.same v = false := by
      intro v hv
      by_contra hwv
      rw [Bool.not_eq_false] at hwv
      exact hin (contains_iff.mpr ⟨v, hv, hwv⟩)
    have hother : ∀ v ∈ s.selected, v.same w = false := by
      intro v hv
      by_contra hvw
      rw [Bool.not_eq_false] at hvw
      have hwv := hP.symm v w (h.within v hv) hw hvw
      rw [hnew v hv] at hwv
      cases hwv
    have hself : Selects (es ++ [.click w true]) w := by
      rw [← hselects w hw, happly, contains_iff]
      exact ⟨w, List.mem_append_right _ (List.mem_singleton_self w), hP.refl w hw⟩
    rw [happly] at hselects ⊢
    refine ⟨?_, ?_, hselects, places ++ [es.length], ?_, ?_⟩
    · exact List.forall_mem_append.mpr ⟨h.within, List.forall_mem_singleton.mpr hw⟩
    · refine List.pairwise_append.mpr ⟨h.distinct, List.pairwise_singleton _ _, fun v hv x hx => ?_⟩
      rw [List.mem_singleton.mp hx]
      exact hother v hv
    · refine List.pairwise_append.mpr ⟨hincreasing, List.pairwise_singleton _ _, fun i hi j hj => ?_⟩
      obtain ⟨v, -, hlast⟩ := forall₂_mem_left hplaces hi
      rw [List.mem_singleton.mp hj]
      exact hlast.added.lt
    · refine List.rel_append ?_ (.cons (lastAddedAt_concat_click (hP.refl w hw) hself) .nil)
      exact forall₂_imp_of_mem hplaces fun i _ v hv hlast => hlast.concat (hnew v hv)

/-- Whatever the event, a selection that records the events before it records it too. -/
theorem records_apply (h : Records P es s) {e : SelectionEvent} (he : e.Within P) :
    Records P (es ++ [e]) (s.apply e) := by
  cases e with
  | clear => exact records_clear s
  | click w shift =>
    cases shift with
    | false => exact records_plain hP s he
    | true => exact records_shift hP h he

/-- So the selection after a run records the run. -/
theorem records_run (hes : ∀ e ∈ es, e.Within P) : Records P es (run {} es) := by
  induction es using List.reverseRecOn with
  | nil =>
    refine ⟨fun v hv => (List.not_mem_nil hv).elim, .nil, fun v _ => ?_, [], .nil, .nil⟩
    exact iff_of_false Bool.false_ne_true (selects_nil v)
  | append_singleton es e ih =>
    obtain ⟨hes, he⟩ := List.forall_mem_append.mp hes
    rw [run, List.foldl_append]
    exact records_apply hP (ih hes) (he e (List.mem_singleton_self e))

end

/-- After any run of events on values that are equivalent when they are the same, no two selected
values are the same; a value is selected when the last plain click since everything was cleared is
on it or an odd number of clicks with shift after that is, but not both; the selected values stand
in the order in which they were last added; and a value stands out when nothing is selected, which
is when the events select no value, or when it is. -/
theorem run_history {P : Value → Prop} (hP : Value.Equated P) {es : List SelectionEvent}
    (hes : ∀ e ∈ es, e.Within P) :
    ((run {} es).selected.Pairwise fun v w => v.same w = false) ∧
    (∀ v, P v → ((run {} es).contains v = true ↔
      Xor ((lastReset? es).any (clicks v) = true) (Odd ((sinceReset es).countP (clicks v))))) ∧
    (∃ places : List Nat, places.Pairwise (· < ·) ∧
      List.Forall₂ (LastAddedAt es) places (run {} es).selected) ∧
    (∀ v, (run {} es).highlights v = true ↔
      (run {} es).selected = [] ∨ (run {} es).contains v = true) ∧
    ((run {} es).selected = [] ↔ ∀ v, P v → ¬ Selects es v) := by
  have h := records_run hP hes
  refine ⟨h.distinct, h.selects, h.ordered, fun v => ?_, fun hnil v hv hselects => ?_,
    fun hnone => ?_⟩
  · rw [highlights, Bool.or_eq_true, List.isEmpty_iff]
  · obtain ⟨w, hw, -⟩ := contains_iff.mp ((h.selects v hv).mpr hselects)
    rw [hnil] at hw
    cases hw
  · refine List.eq_nil_iff_forall_not_mem.mpr fun v hv => ?_
    have hin := contains_iff.mpr ⟨v, hv, hP.refl v (h.within v hv)⟩
    exact hnone v (h.within v hv) ((h.selects v (h.within v hv)).mp hin)

/-- A plain click on one color, and then a second color that is added, taken away and added again
after a third one. -/
def returningColor : List SelectionEvent :=
  [.clear, .click (.str "c") false, .click (.str "a") true, .click (.str "b") true,
    .click (.str "a") true, .click (.str "a") true]

theorem run_history_returningColor :
    (∀ e ∈ returningColor, e.Within Value.IsText) ∧
    (run {} returningColor).selected = [.str "c", .str "b", .str "a"] ∧
    (run {} returningColor).contains (.str "a") = true ∧
    ∃ places : List Nat, places.Pairwise (· < ·) ∧
      List.Forall₂ (LastAddedAt returningColor) places [.str "c", .str "b", .str "a"] := by
  have hes : ∀ e ∈ returningColor, e.Within Value.IsText := by
    simp [returningColor, SelectionEvent.Within, Value.IsText]
  obtain ⟨-, hselects, hordered, -⟩ := run_history Value.equated_isText hes
  -- Three clicks with shift after the plain click on another color are on it.
  have hodd : Odd ((sinceReset returningColor).countP (clicks (.str "a"))) := by decide
  exact ⟨hes, rfl, (hselects _ ⟨"a", rfl⟩).mpr (Or.inr ⟨hodd, by decide⟩), hordered⟩

end Selection

end PlotScene
