import PlotScene.Proofs.Scene.Recoded

/-!
# What a display option may change

Masks hide the parts of a document that the display options are about: the tooltips of marks, their
texts, and the titles of axes.  A mask of encodings gives the same result whether the rules of a
legend are written before or after it.
-/

namespace PlotScene

open Highlight

/-! ## 1. Masks -/

/-- An empty text in the place of a text. -/
def blank : Value → Value
  | .str _ => .str ""
  | v => v

/-- An axis with an empty title. -/
def withBlankTitle (axis : Value) : Value :=
  axis.adjust "title" blank

/-- An encoding with an empty text in its tooltip. -/
def withBlankTooltip (encoding : Value) : Value :=
  encoding.adjust "update" fun u => u.adjust "tooltip" fun t => t.adjust "signal" blank

/-- A mapping without a field that holds an empty mapping. -/
def Value.withoutEmpty (v : Value) (key : String) : Value :=
  match v.get? key with
  | some (.map []) => v.without key
  | _ => v

/-- An encoding whose updates have no tooltip, and which has no updates where no others are left. -/
def withoutTooltip (encoding : Value) : Value :=
  (encoding.adjust "update" fun u => u.without "tooltip").withoutEmpty "update"

/-! ## 2. Masks and rules -/

section

variable {g h : Value → Value}

theorem foldl_withRules {neutral : String}
    (hset : ∀ u x k, k ≠ "tooltip" → h (u.set k x) = (h u).set k x) {channels : List String}
    (hc : ∀ c ∈ channels, c ∈ ["fill", "stroke"]) (u : Value) :
    h (channels.foldl (withRules neutral) u) = channels.foldl (withRules neutral) (h u) := by
  induction channels generalizing u with
  | nil => rfl
  | cons c channels ih =>
    obtain ⟨hcolor, hc⟩ := List.forall_mem_cons.mp hc
    have hne : c ≠ "tooltip" := by
      rintro rfl
      exact absurd hcolor (by decide)
    rw [List.foldl_cons, ih hc, List.foldl_cons, withRules, hset _ _ _ hne,
      hset _ _ _ (by decide), withRules]

-- A mask that acts on the updates alone, and there on nothing but tooltips.
theorem neutral_of_updates (henter : ∀ e, (g e).get? "enter" = e.get? "enter")
    (hwrite : ∀ e u, e.isMap = true → u.isMap = true →
      g (e.set "update" u) = (g e).set "update" (h u))
    (hupdates : ∀ e, e.isMap = true → Updatable e → updates (g e) = h (updates e))
    (hset : ∀ u x k, k ≠ "tooltip" → h (u.set k x) = (h u).set k x) : Neutral g := by
  intro neutral e he
  have hsame : (g e).getD "enter" = e.getD "enter" := by rw [Value.getD, henter, Value.getD]
  rw [ruled, ruled, hsame]
  split
  next => rfl
  next hne =>
    have hmap : e.isMap = true := isMap_of_coloredChannels hne
    have hcolors : ∀ c ∈ coloredChannels (e.getD "enter"), c ∈ ["fill", "stroke"] :=
      fun c hc => (List.mem_filter.mp hc).1
    rw [hwrite e _ hmap (isMap_foldl_withRules (isMap_updates he)), hupdates e hmap he,
      foldl_withRules hset hcolors]

end

theorem neutral_id : Neutral id := fun _ _ _ => rfl

theorem neutral_withBlankTooltip : Neutral withBlankTooltip := by
  refine neutral_of_updates (h := fun u => u.adjust "tooltip" fun t => t.adjust "signal" blank)
    (fun e => Value.get?_adjust_of_ne e (by decide)) (fun e u _ _ => Value.adjust_set_self e u)
    (fun e _ _ => ?_) fun u x k hk => Value.adjust_set_of_ne u x hk
  rw [updates, updates, withBlankTooltip, Value.get?_adjust_self]
  cases e.get? "update" <;> rfl

/-! ## 3. Leaving tooltips out

Rules give a mark updates at the end of its encoding where it had none, so updates that are left
empty cannot be taken out before the rules are written.  Encodings are settled first: they keep
their updates, empty or not, and the empty ones are taken out at the end.
-/

/-- An encoding that has updates, without a tooltip in them. -/
def settled (encoding : Value) : Value :=
  (encoding.adjust "update" fun u => u.without "tooltip").set "update"
    ((mappingOr (encoding.getD "update")).without "tooltip")

theorem mappingOr_of_isMap {v : Value} (h : v.isMap = true) : mappingOr v = v := if_pos h

theorem mappingOr_getD {e : Value} (h : Updatable e) : mappingOr (e.getD "update") = updates e := by
  rw [updates]
  cases hu : e.get? "update" with
  | none =>
    rw [Value.getD_of_get?_none hu]
    rfl
  | some u =>
    rw [Value.getD_of_get? hu]
    exact mappingOr_of_isMap (h u hu)

theorem settled_set {e u : Value} (he : e.isMap = true) (hu : u.isMap = true) :
    settled (e.set "update" u) = (settled e).set "update" (u.without "tooltip") := by
  rw [settled, Value.adjust_set_self, Value.getD_of_get? (Value.get?_set_self e u _ he),
    mappingOr_of_isMap hu, settled, Value.set_set, Value.set_set]

theorem isMap_adjust {f : Value → Value} {key : String} (v : Value) :
    (v.adjust key f).isMap = v.isMap := by
  cases v <;> rfl

theorem updates_settled {e : Value} (he : e.isMap = true) (h : Updatable e) :
    updates (settled e) = (updates e).without "tooltip" := by
  rw [updates, settled, Value.get?_set_self _ _ _ (by rw [isMap_adjust, he]), mappingOr_getD h]
  rfl

theorem neutral_settled : Neutral settled := by
  refine neutral_of_updates (h := fun u => u.without "tooltip") (fun e => ?_)
    (fun e u he hu => settled_set he hu) (fun e he h => updates_settled he h)
    fun u x k hk => Value.without_set_of_ne u x hk
  rw [settled, Value.get?_set_of_ne _ _ (by decide), Value.get?_adjust_of_ne e (by decide)]

/-- Leaving out a tooltip can be done by way of settled encodings. -/
theorem withoutTooltip_eq {e : Value} (h : Updatable e) :
    withoutTooltip e = (settled e).withoutEmpty "update" := by
  cases hu : e.get? "update" with
  | none =>
    have hleft : withoutTooltip e = e := by
      rw [withoutTooltip, Value.adjust_of_get?_none hu, Value.withoutEmpty, hu]
    have hempty : (mappingOr (e.getD "update")).without "tooltip" = .map [] := by
      rw [Value.getD_of_get?_none hu]
      rfl
    rw [hleft, settled, Value.adjust_of_get?_none hu, hempty]
    cases e with
    | map es =>
      rw [Value.withoutEmpty, Value.get?_set_self _ _ _ rfl]
      dsimp only
      rw [Value.without_set_self, Value.without_of_get?_none hu]
    | _ => rfl
  | some u =>
    have hsame : settled e = e.adjust "update" fun u => u.without "tooltip" := by
      apply Value.set_of_get?
      rw [Value.get?_adjust_self, hu, Value.getD_of_get? hu, mappingOr_of_isMap (h u hu)]
      rfl
    rw [hsame, withoutTooltip]

-- Updates go with their tooltip when they hold nothing else.
example (t x : Value) : withoutTooltip (.obj [("update", .obj [("tooltip", t)])]) = .obj [] ∧
    withoutTooltip (.obj [("update", .obj [("x", x), ("tooltip", t)])]) =
      .obj [("update", .obj [("x", x)])] := ⟨rfl, rfl⟩

/-- On shaped marks, the mask `G` hides all that the mask `g` hides. -/
def CoveredBy (g G : Value → Value) : Prop :=
  ∀ m m', Shaped m → Shaped m' → recoded g m = recoded g m' → recoded G m = recoded G m'

theorem coveredBy_self (g : Value → Value) : CoveredBy g g := fun _ _ _ _ h => h

theorem settled_coveredBy_withoutTooltip : CoveredBy settled withoutTooltip := by
  have hsettled {m : Value} (hm : Shaped m) : recoded withoutTooltip m =
      recoded (fun e => e.withoutEmpty "update") (recoded settled m) := by
    rw [hm.takesRules.recoded_recoded]
    exact hm.takesRules.recoded_congr fun e he => withoutTooltip_eq he
  intro m m' hm hm' h
  rw [hsettled hm, hsettled hm', h]

/-! ## 4. Tooltips -/

section

variable {o o' : Presentation}

/-- The encodings of a mark with a tooltip. -/
def withTooltipText (encode : Value) (expression : String) : Value :=
  encode.set "update"
    ((mappingOr (encode.getD "update")).set "tooltip" (signalRef expression))

theorem withTooltip_eq (m : Value) (o : Presentation) (expression : String) :
    withTooltip m o expression = m.set "encode"
      (if o.tooltip then withTooltipText (mappingOr (m.getD "encode")) expression
        else mappingOr (m.getD "encode")) := by
  rw [withTooltip]
  cases o.tooltip <;> rfl

theorem settled_withTooltipText {encode : Value} (h : encode.isMap = true) (expression : String) :
    settled (withTooltipText encode expression) = settled encode := by
  have hmap : ((mappingOr (encode.getD "update")).set "tooltip" (signalRef expression)).isMap =
      true := by
    rw [Value.isMap_set, isMap_mappingOr]
  rw [withTooltipText, settled_set h hmap, Value.without_set_self]
  exact Value.set_set _ _ _ _

/-- Whether a mark has a tooltip makes no difference to settled encodings. -/
theorem recoded_settled_withTooltip (m : Value) (o o' : Presentation) (e e' : String) :
    recoded settled (withTooltip m o e) = recoded settled (withTooltip m o' e') := by
  have hsettled (o : Presentation) (e : String) :
      recoded settled (withTooltip m o e) =
        (recoded settled m).set "encode" (settled (mappingOr (m.getD "encode"))) := by
    rw [withTooltip_eq, recoded_set_encode]
    split
    next => rw [settled_withTooltipText (isMap_mappingOr _)]
    next => rfl
  rw [hsettled, hsettled]

/-- The text of a tooltip makes no difference once it is blank. -/
theorem recoded_blank_withTooltip (m : Value) (h : o.tooltip = o'.tooltip) (e e' : String) :
    recoded withBlankTooltip (withTooltip m o e) =
      recoded withBlankTooltip (withTooltip m o' e') := by
  have hblank (encode : Value) :
      withBlankTooltip (withTooltipText encode e) =
        withBlankTooltip (withTooltipText encode e') := by
    rw [withTooltipText, withTooltipText, withBlankTooltip, withBlankTooltip,
      Value.adjust_set_self, Value.adjust_set_self, Value.adjust_set_self, Value.adjust_set_self]
    rfl
  rw [withTooltip_eq, withTooltip_eq, recoded_set_encode, recoded_set_encode, h]
  split
  next => rw [hblank]
  next => rfl

end

end PlotScene
