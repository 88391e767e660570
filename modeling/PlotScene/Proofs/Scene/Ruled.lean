import Mathlib.Data.List.Forall2
import PlotScene.Proofs.Scene.Masked

/-!
# What rules change in marks

Rules are written into the updates of encodings, at every depth, and there only where a fill or a
stroke goes through the color scale.  Everything else about the marks stays as it was, and rules
that are written a second time change nothing.
-/

namespace PlotScene.Highlight

variable {neutral : String}

/-! ## 1. Encodings -/

/-- A fill or a stroke that goes through the color scale. -/
def BindsColor (encoding : Value) (channel : String) : Prop :=
  channel ∈ ["fill", "stroke"] ∧
    ((encoding.getD "enter").getD channel).get? "scale" = some (.str "color")

/-- What an encoding `e` becomes.  Apart from its updates it stays as it is, and altogether where no
channel goes through the color scale.  Otherwise its updates have the rule for the opacity and the
one for the color in each such channel, and keep all other channels. -/
structure Ruled (neutral : String) (e e' : Value) : Prop where
  rest : e'.without "update" = e.without "update"
  unbound : (∀ channel, ¬ BindsColor e channel) → e' = e
  bound : (∃ channel, BindsColor e channel) → ∃ update, e'.get? "update" = some update ∧
    update.get? "opacity" = some opacityRule ∧
    (∀ channel, BindsColor e channel → update.get? channel = some (colorRule neutral)) ∧
    ∀ key, key ≠ "opacity" → ¬ BindsColor e key → update.get? key = (e.getD "update").get? key

theorem bindsColor_iff {e : Value} {channel : String} :
    BindsColor e channel ↔ channel ∈ coloredChannels (e.getD "enter") :=
  mem_coloredChannels.symm

theorem get?_updates (e : Value) (key : String) :
    (updates e).get? key = (e.getD "update").get? key := by
  rw [updates, Value.getD]
  cases e.get? "update" <;> rfl

section

variable {e : Value} (h : Updatable e)
include h

theorem get?_rules (key : String) :
    ((coloredChannels (e.getD "enter")).foldl (withRules neutral) (updates e)).get? key =
      if key ∈ coloredChannels (e.getD "enter") then some (colorRule neutral)
      else if key = "opacity" ∧ coloredChannels (e.getD "enter") ≠ [] then some opacityRule
      else (e.getD "update").get? key := by
  rw [get?_foldl_withRules (isMap_updates h) ne_opacity_of_mem, get?_updates]

theorem ruled_exact : Ruled neutral e (ruled neutral e) := by
  rw [ruled]
  split
  next hnil =>
    refine ⟨rfl, fun _ => rfl, ?_⟩
    rintro ⟨channel, hc⟩
    rw [bindsColor_iff, hnil] at hc
    cases hc
  next hne =>
    have hset := Value.get?_set_self e
      ((coloredChannels (e.getD "enter")).foldl (withRules neutral) (updates e)) "update"
      (isMap_of_coloredChannels hne)
    refine ⟨Value.without_set_self _ _ _, fun hnone => ?_, fun _ => ⟨_, hset, ?_, ?_, ?_⟩⟩
    · obtain ⟨channel, hc⟩ := List.exists_mem_of_ne_nil _ hne
      exact absurd (bindsColor_iff.mpr hc) (hnone channel)
    · rw [get?_rules h, if_neg fun hmem => ne_opacity_of_mem _ hmem rfl, if_pos ⟨rfl, hne⟩]
    · intro channel hc
      rw [get?_rules h, if_pos (bindsColor_iff.mp hc)]
    · intro key hkey hc
      rw [get?_rules h, if_neg fun hmem => hc (bindsColor_iff.mpr hmem),
        if_neg fun hopacity => hkey hopacity.1]

end

-- Rules that are there already are written over themselves.
theorem foldl_withRules_eq_self {channels : List String} {update : Value}
    (hopacity : channels ≠ [] → update.get? "opacity" = some opacityRule)
    (hcolor : ∀ channel ∈ channels, update.get? channel = some (colorRule neutral)) :
    channels.foldl (withRules neutral) update = update := by
  induction channels with
  | nil => rfl
  | cons channel channels ih =>
    obtain ⟨hfirst, hrest⟩ := List.forall_mem_cons.mp hcolor
    have hset : withRules neutral update channel = update := by
      rw [withRules, Value.set_of_get? (hopacity (List.cons_ne_nil _ _)), Value.set_of_get? hfirst]
    rw [List.foldl_cons, hset]
    exact ih (fun _ => hopacity (List.cons_ne_nil _ _)) hrest

theorem ruled_ruled {e : Value} (h : Updatable e) :
    ruled neutral (ruled neutral e) = ruled neutral e := by
  by_cases hnil : coloredChannels (e.getD "enter") = []
  · have hsame : ruled neutral e = e := if_pos hnil
    rw [hsame, hsame]
  · generalize hrules :
      (coloredChannels (e.getD "enter")).foldl (withRules neutral) (updates e) = rules
    have hfirst : ruled neutral e = e.set "update" rules := by rw [← hrules]; exact if_neg hnil
    have henter : (e.set "update" rules).getD "enter" = e.getD "enter" :=
      Value.getD_set_of_ne _ _ (by decide)
    have hupdates : updates (e.set "update" rules) = rules := by
      rw [updates, Value.get?_set_self _ _ _ (isMap_of_coloredChannels hnil), Option.getD_some]
    have hagain : (coloredChannels (e.getD "enter")).foldl (withRules neutral) rules = rules := by
      refine foldl_withRules_eq_self (fun _ => ?_) fun channel hc => ?_
      · rw [← hrules, get?_rules h, if_neg fun hmem => ne_opacity_of_mem _ hmem rfl,
          if_pos ⟨rfl, hnil⟩]
      · rw [← hrules, get?_rules h, if_pos hc]
    rw [hfirst, ruled, henter, if_neg hnil, hupdates, hagain, Value.set_set]

/-! ## 2. Marks -/

mutual

/-- What a mark becomes: entry by entry, encodings become others, the marks inside become others,
and everything else stays as it is. -/
inductive RuledMark (neutral : String) : Value → Value → Prop where
  | map {es es' : Entries} : RuledEntries neutral es es' → RuledMark neutral (.map es) (.map es')

inductive RuledEntries (neutral : String) : Entries → Entries → Prop where
  | nil : RuledEntries neutral [] []
  | encode {e e' : Value} {es es' : Entries} : Ruled neutral e e' → RuledEntries neutral es es' →
      RuledEntries neutral ((.str "encode", e) :: es) ((.str "encode", e') :: es')
  | marks {ms ms' : List Value} {es es' : Entries} : List.Forall₂ (RuledMark neutral) ms ms' →
      RuledEntries neutral es es' →
      RuledEntries neutral ((.str "marks", .list ms) :: es) ((.str "marks", .list ms') :: es')
  | other {k : Scalar} {v : Value} {es es' : Entries} : k ≠ .str "encode" → k ≠ .str "marks" →
      RuledEntries neutral es es' → RuledEntries neutral ((k, v) :: es) ((k, v) :: es')

end

theorem ruledEntries_map {es : Entries}
    (hencode : ∀ e ∈ es, e.1 = .str "encode" → Updatable e.2)
    (hlist : ∀ e ∈ es, e.1 = .str "marks" → ∃ ms, e.2 = .list ms)
    (hin : ∀ e ∈ es, e.1 = .str "marks" →
      ∀ m ∈ e.2.items, RuledMark neutral m (recoded (ruled neutral) m)) :
    RuledEntries neutral es (es.map fun e => (e.1, recodedAt (ruled neutral) e.1 e.2)) := by
  induction es with
  | nil => exact .nil
  | cons e es ih =>
    obtain ⟨k, v⟩ := e
    obtain ⟨hupdates, hencode⟩ := List.forall_mem_cons.mp hencode
    obtain ⟨hitems, hlist⟩ := List.forall_mem_cons.mp hlist
    obtain ⟨hmarks, hin⟩ := List.forall_mem_cons.mp hin
    have hrest := ih hencode hlist hin
    rw [List.map_cons]
    by_cases hk : k = .str "encode"
    · subst hk
      exact .encode (ruled_exact (hupdates rfl)) hrest
    by_cases hk' : k = .str "marks"
    · subst hk'
      obtain ⟨ms, rfl⟩ := hitems rfl
      rw [recodedAt_marks]
      refine .marks (List.forall₂_map_right_iff.mpr (List.forall₂_same.mpr ?_)) hrest
      exact hmarks rfl
    · rw [recodedAt, if_neg (by rwa [Scalar.same_str_iff]), if_neg (by rwa [Scalar.same_str_iff])]
      exact .other hk hk' hrest

theorem ruledMark_recoded {m : Value} (h : TakesRules m) :
    RuledMark neutral m (recoded (ruled neutral) m) := by
  induction h with
  | mk hencode hlist _ ih =>
    rw [recoded_eq]
    exact .map (ruledEntries_map hencode hlist ih)

/-- Marks get their rules, and marks that have them get no others. -/
theorem marks_exact {ms : List Value} (h : ∀ m ∈ ms, TakesRules m) :
    ∃ ms', marks neutral ms = .ok ms' ∧ List.Forall₂ (RuledMark neutral) ms ms' ∧
      marks neutral ms' = .ok ms' := by
  have hmarks : marks neutral ms = .ok (ms.map (recoded (ruled neutral))) :=
    marks_eq_map fun m hm => mark_eq_recoded (h m hm)
  refine ⟨_, hmarks, ?_, ?_⟩
  · rw [List.forall₂_map_right_iff, List.forall₂_same]
    exact fun m hm => ruledMark_recoded (h m hm)
  · have hagain : ∀ m ∈ ms.map (recoded (ruled neutral)), mark neutral m = .ok (id m) := by
      refine List.forall_mem_map.mpr fun m hm => ?_
      rw [mark_eq_recoded (takesRules_recoded (fun _ => updatable_ruled) (h m hm)),
        (h m hm).recoded_recoded, (h m hm).recoded_congr fun _ => ruled_ruled]
      rfl
    rw [marks_eq_map hagain, List.map_id]

end PlotScene.Highlight
