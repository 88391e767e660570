import PlotScene.Proofs.Layer.Reads
import PlotScene.Scene.Highlight

/-!
# Highlighting reads nothing new

The rules that an interactive legend adds to a mark read the color through the color scale, which
the mark did before; everything else about the mark stays as it was, at every depth.
-/

namespace PlotScene.Highlight

/-! ## 1. Encodings -/

section

variable {P : Value → Prop} (hP : ChannelProperty P) {neutral : String}
include hP

-- The rules of a channel read the color and nothing else.
theorem channel_withRules {update : Value} {channel : String} (h : P update)
    (hcolor : P (colorRule neutral)) (hc : channel ∈ ["fill", "stroke"]) :
    P (withRules neutral update channel) := by
  have hchosen : P (.obj [("test", .str markTest), ("value", .float activeOpacity)]) := by
    apply hP.obj
    simp [channelKeys, hP.scalar]
  have hopacity : P opacityRule := by
    apply hP.list
    simpa using ⟨hchosen, hP.constant (hP.scalar (.float inactiveOpacity))⟩
  have hkey : channel ∉ channelKeys := by
    simp only [List.mem_cons, List.not_mem_nil, or_false] at hc
    rcases hc with rfl | rfl <;> decide
  exact hP.set (hP.set h hopacity (by decide)) hcolor hkey

theorem channel_foldl_withRules {channels : List String} {update : Value} (h : P update)
    (hcolor : P (colorRule neutral)) (hc : ∀ channel ∈ channels, channel ∈ ["fill", "stroke"]) :
    P (channels.foldl (withRules neutral) update) := by
  induction channels generalizing update with
  | nil => exact h
  | cons channel channels ih =>
    exact ih (channel_withRules hP h hcolor (hc channel List.mem_cons_self))
      fun c hm => hc c (List.mem_cons_of_mem _ hm)

/-- A property of channels stays where it is one of the rules about the color. -/
theorem channel_encode {encoding encoding' : Value} (h : P encoding)
    (hcolor : coloredChannels (encoding.getD "enter") ≠ [] → P (colorRule neutral))
    (he : encode neutral encoding = .ok encoding') : P encoding' := by
  rw [encode] at he
  split at he
  next => exact Except.ok.inj he ▸ h
  next hne =>
    dsimp only at he
    split at he
    next =>
      rw [← Except.ok.inj he]
      refine hP.set h (channel_foldl_withRules hP ?_ (hcolor hne) fun c hc => ?_) (by decide)
      · cases hu : encoding.get? "update" with
        | none => exact hP.empty
        | some u => exact hP.of_get? h hu
      · exact (List.mem_filter.mp hc).1
    next => cases he

end

section

variable {F S : String → Prop}

theorem encodes_rule {test : String} {chosen : List (String × Value)} {otherwise : Value}
    (hchosen : Encodes F S (.obj (("test", .str test) :: chosen)))
    (hother : Encodes F S otherwise) : Encodes F S (rule test chosen otherwise) := by
  rw [rule, encodes_list]
  intro v hv
  rcases List.mem_cons.mp hv with rfl | hv
  · exact hchosen
  · obtain rfl := List.mem_singleton.mp hv
    exact encodes_constant.mpr hother

theorem encodes_colorRule {neutral : String} (hs : S colorScaleName) (hf : F "color") :
    Encodes F S (colorRule neutral) := by
  refine encodes_rule (encodes_obj.mpr ⟨fun _ => ⟨?_, fun x hx => ?_⟩, ?_⟩) (encodes_scalar _)
  · exact ⟨colorScaleName, rfl, hs, fun _ => hf⟩
  · obtain rfl := Option.some.inj (show some (Value.str "color") = some x from hx)
    exact ⟨"color", rfl, hf⟩
  · simp

-- A colored channel goes through the color scale, so the color can be read.
theorem color_of_coloredChannels {enter : Value} (h : Encodes F S enter)
    (hne : coloredChannels enter ≠ []) : S colorScaleName ∧ F "color" := by
  obtain ⟨channel, hc⟩ := List.exists_mem_of_ne_nil _ hne
  have huses := (List.mem_filter.mp hc).2
  have hchannel := h.getD channel
  rw [usesColorScale] at huses
  generalize enter.getD channel = c at huses hchannel
  have hscale := Value.get?_of_same huses
  obtain ⟨n, hn, hs, hcol⟩ :=
    (hchannel c (Value.Within.here c) (by rw [Value.has, hscale]; rfl)).scale
  obtain rfl : colorScaleName = n := by simpa using hscale.symm.trans hn
  exact ⟨hs, hcol rfl⟩

theorem encodes_encode {neutral : String} {encoding encoding' : Value}
    (h : Encodes F S encoding) (he : encode neutral encoding = .ok encoding') :
    Encodes F S encoding' := by
  apply channel_encode (channelProperty_encodes F S) h ?_ he
  intro hne
  obtain ⟨hs, hf⟩ := color_of_coloredChannels (h.getD "enter") hne
  exact encodes_colorRule hs hf

end

/-! ## 2. The parts of a highlighted mark -/

-- The first entry of a highlighted mark: an encoding and the marks inside get the rules, and
-- nothing else changes.
theorem entries_cons_eq_ok {neutral : String} {k : Scalar} {v : Value} {es es' : Entries}
    (h : entries neutral ((k, v) :: es) = .ok es') :
    ∃ here rest, es' = (k, here) :: rest ∧ entries neutral es = .ok rest ∧
      (if k.same (.str "encode") then encode neutral v
        else if k.same (.str "marks") then children neutral v
        else pure v) = .ok here := by
  have hrest {x : Except Fault Value}
      (h : (do
        let here ← x
        let rest ← entries neutral es
        return (k, here) :: rest) = .ok es') :
      ∃ here rest, es' = (k, here) :: rest ∧ entries neutral es = .ok rest ∧ x = .ok here := by
    obtain ⟨here, hhere, h⟩ := bind_eq_ok.mp h
    obtain ⟨rest, hrest, h⟩ := bind_eq_ok.mp h
    exact ⟨here, rest, (Except.ok.inj h).symm, hrest, hhere⟩
  rw [entries] at h
  split at h
  next hk =>
    rw [if_pos hk]
    exact hrest h
  next hk =>
    rw [if_neg hk]
    split at h
    next hk' =>
      rw [if_pos hk']
      exact hrest h
    next hk' =>
      rw [if_neg hk']
      exact hrest h

/-- What becomes of the value under a key. -/
def Becomes (neutral key : String) (x y : Value) : Prop :=
  (if key = "encode" then encode neutral x
    else if key = "marks" then children neutral x
    else pure x) = .ok y

theorem get?_entries {neutral : String} {es es' : Entries} (h : entries neutral es = .ok es')
    (key : String) :
    ((Value.map es).get? key = none ∧ (Value.map es').get? key = none) ∨
      ∃ x y, (Value.map es).get? key = some x ∧ (Value.map es').get? key = some y ∧
        Becomes neutral key x y := by
  induction es generalizing es' with
  | nil =>
    obtain rfl := Except.ok.inj h
    exact Or.inl ⟨rfl, rfl⟩
  | cons e es ih =>
    obtain ⟨k, v⟩ := e
    obtain ⟨here, rest, rfl, hrest, hhere⟩ := entries_cons_eq_ok h
    simp only [Value.get?_map, Entries.lookup?_cons] at ih ⊢
    split
    next hk =>
      rw [Scalar.same_str_iff] at hk
      subst hk
      refine Or.inr ⟨v, here, rfl, rfl, ?_⟩
      simpa only [Becomes, Scalar.same_str, beq_iff_eq] using hhere
    next => exact ih hrest

theorem mark_eq_ok {neutral : String} {m m' : Value} (h : mark neutral m = .ok m') :
    ∃ es es', m = .map es ∧ m' = .map es' ∧ entries neutral es = .ok es' := by
  cases m with
  | map es =>
    rw [mark] at h
    obtain ⟨es', hes, h⟩ := bind_eq_ok.mp h
    exact ⟨es, es', rfl, (Except.ok.inj h).symm, hes⟩
  | _ => cases h

theorem get?_mark {neutral : String} {m m' : Value} (h : mark neutral m = .ok m') (key : String) :
    (m.get? key = none ∧ m'.get? key = none) ∨
      ∃ x y, m.get? key = some x ∧ m'.get? key = some y ∧ Becomes neutral key x y := by
  obtain ⟨es, es', rfl, rfl, hes⟩ := mark_eq_ok h
  exact get?_entries hes key

theorem isMap_mark {neutral : String} {m m' : Value} (h : mark neutral m = .ok m') :
    m'.isMap = true := by
  obtain ⟨es, es', -, rfl, -⟩ := mark_eq_ok h
  rfl

-- Under a key other than those of encodings and marks everything stays as it was.
theorem get?_mark_of_ne {neutral : String} {m m' : Value} (h : mark neutral m = .ok m')
    {key : String} (hk : key ∉ ["encode", "marks"]) : m'.get? key = m.get? key := by
  simp only [List.mem_cons, List.not_mem_nil, or_false, not_or] at hk
  rcases get?_mark h key with ⟨hx, hy⟩ | ⟨x, y, hx, hy, hb⟩
  · rw [hx, hy]
  · rw [Becomes, if_neg hk.1, if_neg hk.2] at hb
    rw [hx, hy, Except.ok.inj hb]

-- What the rules keep of an encoding is kept of the encoding of a mark.
theorem encode_mark {P : Value → Prop} {neutral : String} {m m' : Value} (hnull : P .null)
    (hstep : ∀ {e e' : Value}, P e → encode neutral e = .ok e' → P e')
    (h : mark neutral m = .ok m') (he : P (m.getD "encode")) : P (m'.getD "encode") := by
  rcases get?_mark h "encode" with ⟨-, hy⟩ | ⟨x, y, hx, hy, hb⟩
  · rw [Value.getD_of_get?_none hy]
    exact hnull
  · rw [Value.getD_of_get? hx] at he
    rw [Value.getD_of_get? hy]
    exact hstep he hb

theorem encodes_mark {F S : String → Prop} {neutral : String} {m m' : Value}
    (h : mark neutral m = .ok m') (he : Encodes F S (m.getD "encode")) :
    Encodes F S (m'.getD "encode") :=
  encode_mark (encodes_scalar _) encodes_encode h he

-- A mark without marks inside has none after it is highlighted.
theorem marks_mark_eq_none {neutral : String} {m m' : Value} (h : mark neutral m = .ok m')
    (hm : m.get? "marks" = none) : m'.get? "marks" = none := by
  rcases get?_mark h "marks" with ⟨-, hy⟩ | ⟨x, y, hx, -, -⟩
  · exact hy
  · rw [hm] at hx
    cases hx

theorem exists_of_mem_marks {neutral : String} {vs vs' : List Value}
    (h : marks neutral vs = .ok vs') {v' : Value} (hv : v' ∈ vs') :
    ∃ v ∈ vs, mark neutral v = .ok v' := by
  induction vs generalizing vs' with
  | nil =>
    obtain rfl := Except.ok.inj h
    cases hv
  | cons w ws ih =>
    rw [marks] at h
    obtain ⟨first, hfirst, h⟩ := bind_eq_ok.mp h
    obtain ⟨rest, hrest, h⟩ := bind_eq_ok.mp h
    obtain rfl := Except.ok.inj h
    rcases List.mem_cons.mp hv with rfl | hv
    · exact ⟨w, List.mem_cons_self, hfirst⟩
    · obtain ⟨v, hv, hm⟩ := ih hrest hv
      exact ⟨v, List.mem_cons_of_mem _ hv, hm⟩

-- The marks inside a highlighted mark are those that were inside, each of them highlighted.
theorem marks_mark_eq_some {neutral : String} {m m' : Value} {vs : List Value}
    (h : mark neutral m = .ok m') (hm : m.get? "marks" = some (.list vs)) :
    ∃ vs', m'.get? "marks" = some (.list vs') ∧
      ∀ v' ∈ vs', ∃ v ∈ vs, mark neutral v = .ok v' := by
  rcases get?_mark h "marks" with ⟨hx, -⟩ | ⟨x, y, hx, hy, hb⟩
  · rw [hm] at hx
    cases hx
  · obtain rfl := Option.some.inj (hm.symm.trans hx)
    have hchildren : children neutral (.list vs) = .ok y := hb
    rw [children] at hchildren
    obtain ⟨vs', hvs, hlist⟩ := bind_eq_ok.mp hchildren
    obtain rfl := Except.ok.inj hlist
    exact ⟨vs', hy, fun v' hv => exists_of_mem_marks hvs hv⟩

theorem parts_mark_scales {neutral : String} {m m' : Value} (h : mark neutral m = .ok m')
    (hm : m.isMap = true) : Reference.parts m' "scales" = Reference.parts m "scales" :=
  Reference.parts_congr (get?_mark_of_ne h (by decide)) (by rw [isMap_mark h, hm])

/-! ## 3. Marks -/

/-- A highlighted mark reads within every view in which the mark did. -/
theorem markReads_mark {neutral : String} {V : View} {m m' : Value} (hm : MarkReads V m)
    (h : mark neutral m = .ok m') : MarkReads V m' := by
  induction hm generalizing m' with
  | flat hfrom hs hflat =>
    refine MarkReads.flat ?_ hs ⟨isMap_mark h, ?_, ?_, encodes_mark h hflat.channels⟩
    · rw [Value.getD, get?_mark_of_ne h (by decide)]
      exact hfrom
    · rw [get?_mark_of_ne h (by decide)]
      exact hflat.scales
    · exact marks_mark_eq_none h hflat.marks
  -- The marks inside see more than the mark itself, and each of them is highlighted on its own.
  | @facet V m g name source cs hmap hfrom hname hdata hs hgroup hown henc hmarks _ ih =>
    have hparts := parts_mark_scales h hmap
    obtain ⟨cs', hy, hcs⟩ := marks_mark_eq_some h hmarks
    refine MarkReads.facet (isMap_mark h) ?_ hname hdata hs hgroup ?_ ?_ hy fun c hc => ?_
    · rw [Value.getD, get?_mark_of_ne h (by decide)]
      exact hfrom
    · rw [hparts]
      exact hown
    · rw [hparts]
      exact encodes_mark h henc
    · obtain ⟨v, hv, hmark⟩ := hcs c hc
      rw [hparts]
      exact ih v hv hmark

theorem markReads_marks {neutral : String} {V : View} {vs vs' : List Value}
    (hvs : ∀ m ∈ vs, MarkReads V m) (h : marks neutral vs = .ok vs') :
    ∀ m ∈ vs', MarkReads V m := by
  intro m' hm'
  obtain ⟨m, hm, hmark⟩ := exists_of_mem_marks h hm'
  exact markReads_mark (hvs m hm) hmark

/-! ## 4. The opacity of marks at every depth -/

-- Every mark at any depth inside highlighted marks is a highlighted mark.
theorem exists_mark_of_children {neutral : String} {x y : Value}
    (h : children neutral x = .ok y) {m : Value} (hm : m ∈ y.items) :
    ∃ v, mark neutral v = .ok m := by
  unfold children at h
  split at h
  next vs =>
    obtain ⟨vs', hvs, h⟩ := bind_eq_ok.mp h
    obtain rfl := Except.ok.inj h
    obtain ⟨v, -, hv⟩ := exists_of_mem_marks hvs hm
    exact ⟨v, hv⟩
  next hother =>
    obtain ⟨items, hitems, h⟩ := bind_eq_ok.mp h
    split at h
    · obtain rfl := Except.ok.inj h
      cases x with
      | list vs => exact absurd rfl (hother vs)
      | _ => cases hm
    · cases h

theorem exists_mark_of_markAt {neutral : String} {vs vs' : List Value}
    (h : marks neutral vs = .ok vs') {as : List Value} {m : Value} (hm : Reference.MarkAt vs' as m) :
    ∃ v, mark neutral v = .ok m := by
  induction hm with
  | top hm =>
    obtain ⟨v, -, hv⟩ := exists_of_mem_marks h hm
    exact ⟨v, hv⟩
  | @within as a m _ hm ih =>
    obtain ⟨v, hv⟩ := ih
    rcases get?_mark hv "marks" with ⟨-, hy⟩ | ⟨x, y, -, hy, hb⟩
    · rw [Reference.inside, Value.getD_of_get?_none hy] at hm
      cases hm
    · rw [Reference.inside, Value.getD_of_get? hy] at hm
      exact exists_mark_of_children hb hm

theorem mem_coloredChannels {enter : Value} {channel : String} :
    channel ∈ coloredChannels enter ↔ channel ∈ ["fill", "stroke"] ∧
      (enter.getD channel).get? "scale" = some (.str colorScaleName) := by
  rw [coloredChannels, List.mem_filter, usesColorScale]
  refine and_congr_right fun _ => ⟨Value.get?_of_same, fun h => ?_⟩
  rw [Value.getD_of_get? h]
  exact (Scalar.same_str_iff _ _).mpr rfl

theorem ne_opacity_of_mem {enter : Value} :
    ∀ channel ∈ coloredChannels enter, channel ≠ "opacity" := by
  rintro channel hchannel rfl
  exact absurd (mem_coloredChannels.mp hchannel).1 (by decide)

theorem isMap_of_coloredChannels {e : Value} (hne : coloredChannels (e.getD "enter") ≠ []) :
    e.isMap = true := by
  cases e with
  | map es => rfl
  | _ => exact absurd rfl hne

/-- Rules have the last word on their channels and on the opacity, and other channels stay. -/
theorem get?_foldl_withRules {neutral : String} {channels : List String} {update : Value}
    (hmap : update.isMap = true) (hc : ∀ channel ∈ channels, channel ≠ "opacity") (key : String) :
    (channels.foldl (withRules neutral) update).get? key =
      if key ∈ channels then some (colorRule neutral)
      else if key = "opacity" ∧ channels ≠ [] then some opacityRule
      else update.get? key := by
  induction channels generalizing update with
  | nil => simp
  | cons channel channels ih =>
    obtain ⟨hchannel, hc⟩ := List.forall_mem_cons.mp hc
    have hfirst : (withRules neutral update channel).get? key =
        if channel = key then some (colorRule neutral)
        else if "opacity" = key then some opacityRule else update.get? key := by
      rw [withRules, Value.get?_set _ _ _ _ (by rw [Value.isMap_set, hmap]),
        Value.get?_set _ _ _ _ hmap]
    rw [List.foldl_cons, ih (by rw [withRules, Value.isMap_set, Value.isMap_set, hmap]) hc, hfirst]
    grind

-- The updates of a highlighted mark that shows the color scale.
theorem updates_of_mark {neutral : String} {v m : Value} (h : mark neutral v = .ok m)
    (hne : coloredChannels ((m.getD "encode").getD "enter") ≠ []) :
    ∃ update : Value, update.isMap = true ∧ (m.getD "encode").getD "update" =
      (coloredChannels ((m.getD "encode").getD "enter")).foldl (withRules neutral) update := by
  rcases get?_mark h "encode" with ⟨-, hy⟩ | ⟨x, y, -, hy, hb⟩
  · rw [Value.getD_of_get?_none hy] at hne
    exact absurd rfl hne
  rw [Value.getD_of_get? hy] at hne ⊢
  have hencode : encode neutral x = .ok y := hb
  rw [encode] at hencode
  split at hencode
  next hnil =>
    obtain rfl := Except.ok.inj hencode
    exact absurd hnil hne
  next hcolored =>
    dsimp only at hencode
    split at hencode
    next hupdate =>
      obtain rfl := Except.ok.inj hencode
      have hx : x.isMap = true := isMap_of_coloredChannels hcolored
      refine ⟨_, hupdate, ?_⟩
      rw [Value.getD_of_get? (Value.get?_set_self _ _ _ hx), Value.getD_set_of_ne _ _ (by decide)]
    next => cases hencode

section

variable {neutral : String} {v m : Value} (h : mark neutral v = .ok m)
include h

/-- A highlighted mark that shows the color scale has the rule for its opacity. -/
theorem get?_opacity (hne : coloredChannels ((m.getD "encode").getD "enter") ≠ []) :
    ((m.getD "encode").getD "update").get? "opacity" = some opacityRule := by
  obtain ⟨update, hmap, hupdates⟩ := updates_of_mark h hne
  rw [hupdates, get?_foldl_withRules hmap ne_opacity_of_mem,
    if_neg fun hmem => ne_opacity_of_mem _ hmem rfl, if_pos ⟨rfl, hne⟩]

/-- A channel of a highlighted mark that shows the color scale has the rule for its color. -/
theorem get?_channel {channel : String}
    (hc : channel ∈ coloredChannels ((m.getD "encode").getD "enter")) :
    ((m.getD "encode").getD "update").get? channel = some (colorRule neutral) := by
  obtain ⟨update, hmap, hupdates⟩ := updates_of_mark h (List.ne_nil_of_mem hc)
  rw [hupdates, get?_foldl_withRules hmap ne_opacity_of_mem, if_pos hc]

end

end PlotScene.Highlight
