import PlotScene.Layer.Plan
import PlotScene.Proofs.Firsts
import PlotScene.Proofs.Layer.Heat
import PlotScene.Proofs.Pairwise

/-!
# A registry after a run of calls

What a registry holds can be read off the calls that were made on it.  A call is accepted when it
overrides or is the first for its kind; a kind has the builder of its last accepted call and keeps
the place of its first one.  The layers that are built are the planned ones of registered kinds.
-/

namespace PlotScene

/-- A call that asks for a builder to be registered. -/
structure Registration where
  kind : LayerKind
  builder : Builder
  override : Bool

/-! ## 1. Calls -/

namespace Registration

/-- Whether a call is accepted after these calls: it overrides, or none of them is for its kind. -/
def isAcceptedAfter (earlier : List Registration) (c : Registration) : Bool :=
  c.override || !(earlier.map kind).contains c.kind

/-- The calls of a run that are accepted, in their order. -/
def accepted (calls : List Registration) : List Registration :=
  keeping isAcceptedAfter calls

/-- The last accepted call for a kind. -/
def lastFor? (calls : List Registration) (k : LayerKind) : Option Registration :=
  ((accepted calls).filter fun c => c.kind == k).getLast?

theorem lastFor?_concat {calls : List Registration} {c : Registration}
    (h : c.isAcceptedAfter calls = true) (k : LayerKind) :
    lastFor? (calls ++ [c]) k = if c.kind = k then some c else lastFor? calls k := by
  rw [lastFor?, accepted, keeping_concat, if_pos h, List.filter_append]
  by_cases hk : c.kind = k
  · have hlast : [c].filter (fun c => c.kind == k) = [c] := by simp [hk]
    rw [if_pos hk, hlast, List.getLast?_concat]
  · have hlast : [c].filter (fun c => c.kind == k) = [] := by simp [hk]
    rw [if_neg hk, hlast, List.append_nil]
    rfl

theorem mem_of_lastFor? {calls : List Registration} {k : LayerKind} {c : Registration}
    (h : lastFor? calls k = some c) : c ∈ calls :=
  mem_of_mem_keeping (List.mem_of_mem_filter (List.mem_of_getLast? h))

-- The first call for a kind is accepted, so no kind is missing among the accepted calls.
theorem mem_map_accepted {calls : List Registration} {k : LayerKind} :
    k ∈ (accepted calls).map kind ↔ k ∈ calls.map kind := by
  induction calls using List.reverseRecOn with
  | nil => rfl
  | append_singleton calls c ih =>
    rw [accepted, keeping_concat, List.map_append, List.map_append, List.mem_append,
      List.mem_append, ← accepted, ih]
    by_cases h : c.isAcceptedAfter calls = true
    · rw [if_pos h]
    · rw [if_neg h]
      have hseen : c.kind ∈ calls.map kind := by
        simp only [isAcceptedAfter, Bool.or_eq_true, Bool.not_eq_true', not_or] at h
        exact List.contains_iff_mem.mp (by simpa using h.2)
      constructor
      · rintro (hk | hk)
        · exact Or.inl hk
        · cases hk
      · rintro (hk | hk)
        · exact Or.inl hk
        · rw [List.mem_singleton.mp hk]
          exact Or.inl hseen

end Registration

namespace Registry

open Registration

/-! ## 2. One call -/

theorem lookup_cons_pair (k l : LayerKind) (b : Builder) (es : List (LayerKind × Builder)) :
    ((l, b) :: es).lookup k = if l = k then some b else es.lookup k := by
  rw [List.lookup_cons]
  by_cases h : l = k
  · rw [if_pos h, h, beq_self_eq_true]
  · rw [if_neg h, beq_false_of_ne (Ne.symm h)]

theorem lookup_assign (es : List (LayerKind × Builder)) (k : LayerKind) (b : Builder)
    (k' : LayerKind) :
    (assign es k b).lookup k' = if k = k' then some b else es.lookup k' := by
  induction es with
  | nil => exact lookup_cons_pair k' k b []
  | cons e es ih =>
    obtain ⟨l, present⟩ := e
    rw [assign]
    split
    next hl =>
      rw [lookup_cons_pair, lookup_cons_pair, hl]
      by_cases hk : k = k' <;> simp [hk]
    next hl =>
      rw [lookup_cons_pair, lookup_cons_pair, ih]
      by_cases hk : k = k'
      · rw [if_pos hk, if_pos hk, if_neg (hk ▸ hl)]
      · rw [if_neg hk, if_neg hk]

-- A kind that is there keeps its place.
theorem map_fst_assign (es : List (LayerKind × Builder)) (k : LayerKind) (b : Builder) :
    (assign es k b).map Prod.fst =
      if (es.map Prod.fst).contains k then es.map Prod.fst else es.map Prod.fst ++ [k] := by
  induction es with
  | nil => rfl
  | cons e es ih =>
    obtain ⟨l, present⟩ := e
    rw [assign]
    by_cases hl : l = k
    · subst hl
      simp
    · rw [if_neg hl, List.map_cons, ih, List.map_cons, List.contains_cons]
      have hne : (k == l) = false := beq_false_of_ne (Ne.symm hl)
      rw [hne, Bool.false_or]
      split <;> rfl

theorem contains_iff {r : Registry} {k : LayerKind} : r.contains k = true ↔ k ∈ r.kinds := by
  rw [contains, get?, kinds]
  induction r.builders with
  | nil => simp
  | cons e es ih =>
    obtain ⟨l, b⟩ := e
    rw [lookup_cons_pair, List.map_cons, List.mem_cons, ← ih]
    by_cases hk : l = k
    · simp [hk]
    · simp [hk, Ne.symm hk]

/-- A call is refused exactly when its kind is registered and it does not override. -/
theorem register_eq_error_iff {r : Registry} {c : Registration} {f : Fault} :
    r.register c.kind c.builder c.override = .error f ↔
      c.override = false ∧ ∃ present, r.get? c.kind = some present ∧
        f = .kindTaken c.kind present.location c.builder.location := by
  rw [register]
  cases r.get? c.kind with
  | none => simp
  | some present => cases c.override <;> simp [eq_comm]

theorem exists_register_iff {r : Registry} {c : Registration} :
    (∃ next, r.register c.kind c.builder c.override = .ok next) ↔
      c.override = true ∨ r.contains c.kind = false := by
  rw [register, contains]
  cases r.get? c.kind with
  | none => simp
  | some present => cases c.override <;> simp

/-- The registry after a call, which leaves it as it is when it is refused. -/
def after (r : Registry) (c : Registration) : Registry :=
  match r.register c.kind c.builder c.override with
  | .ok next => next
  | .error _ => r

theorem after_of_error {r : Registry} {c : Registration} {f : Fault}
    (h : r.register c.kind c.builder c.override = .error f) : r.after c = r := by
  rw [after, h]

theorem after_of_ok {r next : Registry} {c : Registration}
    (h : r.register c.kind c.builder c.override = .ok next) :
    r.after c = ⟨assign r.builders c.kind c.builder⟩ := by
  have hnext : next = ⟨assign r.builders c.kind c.builder⟩ := by
    rw [register] at h
    split at h
    next =>
      split at h
      next => exact (Except.ok.inj h).symm
      next => cases h
    next => exact (Except.ok.inj h).symm
  rw [after, h, hnext]

/-! ## 3. Runs -/

/-- The registry after a run of calls on an empty one. -/
def run (calls : List Registration) : Registry :=
  calls.foldl after {}

theorem run_concat (calls : List Registration) (c : Registration) :
    run (calls ++ [c]) = (run calls).after c :=
  List.foldl_concat ..

/-- What a registry records of the calls that were made on it. -/
structure Records (r : Registry) (calls : List Registration) : Prop where
  kinds : r.kinds = firsts ((accepted calls).map Registration.kind)
  get? : ∀ k, r.get? k = (lastFor? calls k).map Registration.builder

theorem Records.contains_iff {r : Registry} {calls : List Registration} (h : r.Records calls)
    {k : LayerKind} : r.contains k = true ↔ ∃ c ∈ accepted calls, c.kind = k := by
  rw [Registry.contains_iff, h.kinds, mem_firsts, List.mem_map]

/-- A registry accepts a call exactly when the calls before it say so. -/
theorem Records.exists_register_iff {r : Registry} {calls : List Registration}
    (h : r.Records calls) (c : Registration) :
    (∃ next, r.register c.kind c.builder c.override = .ok next) ↔
      c.isAcceptedAfter calls = true := by
  have hseen : r.contains c.kind = (calls.map Registration.kind).contains c.kind := by
    rw [Bool.eq_iff_iff, Registry.contains_iff, h.kinds, mem_firsts, mem_map_accepted,
      List.contains_iff_mem]
  rw [Registry.exists_register_iff, hseen, isAcceptedAfter, Bool.or_eq_true, Bool.not_eq_true']

theorem Records.accepted_of_ok {r next : Registry} {calls : List Registration}
    {c : Registration} (h : r.Records calls)
    (hnext : r.register c.kind c.builder c.override = .ok next) :
    c.isAcceptedAfter calls = true ∧ accepted (calls ++ [c]) = accepted calls ++ [c] := by
  have haccepted := (h.exists_register_iff c).mp ⟨next, hnext⟩
  exact ⟨haccepted, by rw [accepted, keeping_concat, if_pos haccepted, accepted]⟩

theorem Records.accepted_of_error {r : Registry} {calls : List Registration}
    {c : Registration} {f : Fault} (h : r.Records calls)
    (hf : r.register c.kind c.builder c.override = .error f) :
    accepted (calls ++ [c]) = accepted calls := by
  have hrefused : ¬ c.isAcceptedAfter calls = true := by
    rw [← h.exists_register_iff, hf]
    rintro ⟨next, hnext⟩
    cases hnext
  rw [accepted, keeping_concat, if_neg hrefused, List.append_nil, accepted]

theorem Records.after {r : Registry} {calls : List Registration} (h : r.Records calls)
    (c : Registration) : (r.after c).Records (calls ++ [c]) := by
  cases hregister : r.register c.kind c.builder c.override with
  | error f =>
    have hsame := h.accepted_of_error hregister
    rw [after_of_error hregister]
    exact ⟨by rw [hsame, h.kinds], fun k => by rw [h.get?, lastFor?, lastFor?, hsame]⟩
  | ok next =>
    obtain ⟨haccepted, hconcat⟩ := h.accepted_of_ok hregister
    rw [after_of_ok hregister]
    constructor
    · rw [hconcat, List.map_append, List.map_singleton, firsts_append_singleton, ← h.kinds]
      exact map_fst_assign r.builders c.kind c.builder
    · intro k
      rw [lastFor?_concat haccepted]
      refine (lookup_assign r.builders c.kind c.builder k).trans ?_
      split
      next => rfl
      next => exact h.get? k

theorem records_run (calls : List Registration) : (run calls).Records calls := by
  induction calls using List.reverseRecOn with
  | nil => exact ⟨rfl, fun _ => rfl⟩
  | append_singleton calls c ih =>
    rw [run_concat]
    exact ih.after c

-- The standard registry is what registering every kind once leads to.
example : run (LayerKind.all.map fun kind => ⟨kind, kind.builder, false⟩) = standard := rfl

end Registry

/-! ## 4. Layers -/

section

variable {p : Plot} {o : Presentation} {s : Style} {r : Registry}

/-- A layer of this kind is made by the builder that is registered for it. -/
structure Registry.Makes (r : Registry) (p : Plot) (o : Presentation) (s : Style)
    (kind : LayerKind) (layer : Layer) : Prop where
  place : layer.kind = kind
  builder : ∃ b, r.get? kind = some b ∧ b.build p o s = .ok layer.fragment

theorem Registry.contains_of_get? {kind : LayerKind} {b : Builder} (h : r.get? kind = some b) :
    r.contains kind = true := by
  rw [contains, h]
  rfl

/-- The layers of these kinds are those of the registered ones among them, in the same order. -/
theorem buildKinds_eq_ok {kinds : List LayerKind} {layers : List Layer} :
    p.buildKinds o s r kinds = .ok layers ↔
      List.Forall₂ (r.Makes p o s) (kinds.filter r.contains) layers := by
  induction kinds generalizing layers with
  | nil =>
    rw [List.filter_nil, List.forall₂_nil_left_iff]
    exact ⟨fun h => (Except.ok.inj h).symm, fun h => congrArg Except.ok h.symm⟩
  | cons kind kinds ih =>
    rw [Plot.buildKinds]
    cases hget : r.get? kind with
    | none =>
      have hout : ¬ r.contains kind = true := by simp [Registry.contains, hget]
      rw [List.filter_cons_of_neg hout]
      exact ih
    | some b =>
      rw [List.filter_cons_of_pos (Registry.contains_of_get? hget), List.forall₂_cons_left_iff]
      dsimp only
      rw [bind_eq_ok]
      constructor
      · rintro ⟨f, hf, h⟩
        obtain ⟨rest, hrest, h⟩ := bind_eq_ok.mp h
        exact ⟨⟨kind, f⟩, rest, ⟨rfl, b, hget, hf⟩, ih.mp hrest, (Except.ok.inj h).symm⟩
      · rintro ⟨layer, rest, ⟨rfl, b', hb', hf⟩, hrest, rfl⟩
        obtain rfl : b = b' := Option.some.inj (hget.symm.trans hb')
        exact ⟨layer.fragment, hf, bind_eq_ok.mpr ⟨rest, ih.mpr hrest, rfl⟩⟩

theorem exists_buildKinds_iff {kinds : List LayerKind} :
    (∃ layers, p.buildKinds o s r kinds = .ok layers) ↔
      ∀ kind ∈ kinds, ∀ b, r.get? kind = some b → ∃ f, b.build p o s = .ok f := by
  constructor
  · rintro ⟨layers, h⟩ kind hkind b hb
    have hin : kind ∈ kinds.filter r.contains :=
      List.mem_filter.mpr ⟨hkind, Registry.contains_of_get? hb⟩
    obtain ⟨layer, -, -, b', hb', hf⟩ := forall₂_mem_left (buildKinds_eq_ok.mp h) hin
    obtain rfl : b = b' := Option.some.inj (hb.symm.trans hb')
    exact ⟨layer.fragment, hf⟩
  · intro h
    have hmakes : ∀ kind ∈ kinds.filter r.contains, ∃ layer, r.Makes p o s kind layer := by
      intro kind hkind
      obtain ⟨hkind, hin⟩ := List.mem_filter.mp hkind
      obtain ⟨b, hb⟩ := Option.isSome_iff_exists.mp hin
      obtain ⟨f, hf⟩ := h kind hkind b hb
      exact ⟨⟨kind, f⟩, rfl, b, hb, hf⟩
    obtain ⟨layers, hlayers⟩ := forall₂_of_forall hmakes
    exact ⟨layers, buildKinds_eq_ok.mpr hlayers⟩

theorem Registry.kinds_of_makes {kinds : List LayerKind} {layers : List Layer}
    (h : List.Forall₂ (r.Makes p o s) kinds layers) : layers.map Layer.kind = kinds := by
  have hplaces := map_eq_of_forall₂ h (f := id) (g := Layer.kind)
    fun kind _ layer _ hmakes => hmakes.place.symm
  rw [← hplaces, List.map_id]

theorem buildKinds_of_build {layers : List Layer} {told : List Notice}
    (h : p.build o s r = .ok (layers, told)) :
    p.buildKinds o s r p.layers.1 = .ok layers ∧
      told = p.layers.2 ++ layers.flatMap fun layer => layer.fragment.notices := by
  rw [Plot.build] at h
  obtain ⟨built, hbuilt, h⟩ := bind_eq_ok.mp h
  obtain ⟨rfl, rfl⟩ := Prod.mk.inj (Except.ok.inj h)
  exact ⟨hbuilt, rfl⟩

theorem exists_build_iff : (∃ out, p.build o s r = .ok out) ↔
    ∀ kind ∈ p.layers.1, ∀ b, r.get? kind = some b → ∃ f, b.build p o s = .ok f := by
  rw [← exists_buildKinds_iff]
  exact exists_bind_pure _

/-- Only the heat map among the built-in layers can fail, and only over a ragged color map. -/
theorem LayerKind.exists_fragment_iff {kind : LayerKind} :
    (∃ f, kind.fragment p o s = .ok f) ↔ ¬ (kind = .statistic .bin2d ∧ p.RaggedColormap) := by
  constructor
  · rintro ⟨f, hf⟩ ⟨rfl, hragged⟩
    obtain ⟨shape, hshape⟩ := Cell.fragment_ragged hragged
    cases hf.symm.trans (hshape _ o s)
  · intro h
    cases kind with
    | geometry g => exact ⟨_, rfl⟩
    | statistic k =>
      cases k with
      | bin2d => exact Cell.fragment_answers (fun hragged => h ⟨rfl, hragged⟩) _
      | _ => exact ⟨_, rfl⟩

end

namespace Registry

open Registration

/-- What one more call does to a registry that these calls were made on. -/
structure Decides (calls : List Registration) (c : Registration) : Prop where
  refused_iff : (∃ f, (run calls).register c.kind c.builder c.override = .error f) ↔
    (run calls).contains c.kind = true ∧ c.override = false
  refused : ∀ f, (run calls).register c.kind c.builder c.override = .error f →
    run (calls ++ [c]) = run calls ∧ accepted (calls ++ [c]) = accepted calls ∧
      ∃ present, (run calls).get? c.kind = some present ∧
        f = .kindTaken c.kind present.location c.builder.location
  answered : ∀ next, (run calls).register c.kind c.builder c.override = .ok next →
    run (calls ++ [c]) = next ∧ accepted (calls ++ [c]) = accepted calls ++ [c]

theorem decides (calls : List Registration) (c : Registration) : Decides calls c where
  refused_iff := by
    constructor
    · rintro ⟨f, hf⟩
      obtain ⟨hoverride, present, hpresent, -⟩ := register_eq_error_iff.mp hf
      exact ⟨contains_of_get? hpresent, hoverride⟩
    · rintro ⟨hin, hoverride⟩
      obtain ⟨present, hpresent⟩ := Option.isSome_iff_exists.mp hin
      exact ⟨_, register_eq_error_iff.mpr ⟨hoverride, present, hpresent, rfl⟩⟩
  refused f hf := ⟨by rw [run_concat, after_of_error hf],
    (records_run calls).accepted_of_error hf, (register_eq_error_iff.mp hf).2⟩
  answered next hnext := ⟨by rw [run_concat, after, hnext],
    ((records_run calls).accepted_of_ok hnext).2⟩

/-- After any run of calls that register built-in builders, a further call is refused exactly when
its kind is registered and it does not override, and then nothing changes.  A kind has the builder
of the last call that was accepted for it, and the kinds stand in the order of their first ones.
The layers that are built are those of the planned kinds that are registered, in the order of the
plan, and nothing stops them but a heat map that samples a ragged color map. -/
theorem run_lastAccepted (calls : List Registration)
    (hcalls : ∀ c ∈ calls, ∃ kind : LayerKind, c.builder = kind.builder) :
    (∀ c, Decides calls c) ∧
    (∀ kind, (run calls).get? kind = (lastFor? calls kind).map Registration.builder) ∧
    (∀ kind, (run calls).contains kind = true ↔ ∃ c ∈ accepted calls, c.kind = kind) ∧
    (run calls).kinds = firsts ((accepted calls).map Registration.kind) ∧
    ∀ (p : Plot) (o : Presentation) (s : Style),
      ((∃ out, p.build o s (run calls) = .ok out) ↔ ¬ (p.RaggedColormap ∧ ∃ kind ∈ p.layers.1,
        (run calls).get? kind = some (LayerKind.statistic .bin2d).builder)) ∧
      ∀ layers told, p.build o s (run calls) = .ok (layers, told) →
        layers.map Layer.kind = p.layers.1.filter (run calls).contains ∧
        ∀ layer ∈ layers, ∃ b, (run calls).get? layer.kind = some b ∧
          b.build p o s = .ok layer.fragment := by
  have hrecords := records_run calls
  have hbuiltin {kind : LayerKind} {b : Builder} (hb : (run calls).get? kind = some b) :
      ∃ k : LayerKind, b = k.builder := by
    rw [hrecords.get?] at hb
    obtain ⟨c, hc, rfl⟩ := Option.map_eq_some_iff.mp hb
    exact hcalls c (mem_of_lastFor? hc)
  refine ⟨decides calls, hrecords.get?, fun kind => hrecords.contains_iff, hrecords.kinds,
    fun p o s => ⟨?_, fun layers told h => ?_⟩⟩
  · rw [exists_build_iff]
    constructor
    · rintro h ⟨hragged, kind, hkind, hb⟩
      have hf : ∃ f, (LayerKind.statistic .bin2d).fragment p o s = .ok f := h kind hkind _ hb
      exact LayerKind.exists_fragment_iff.mp hf ⟨rfl, hragged⟩
    · intro h kind hkind b hb
      obtain ⟨k, rfl⟩ := hbuiltin hb
      refine LayerKind.exists_fragment_iff.mpr fun hbad => h ⟨hbad.2, kind, hkind, ?_⟩
      rw [hb, hbad.1]
  · have hlayers := buildKinds_eq_ok.mp (buildKinds_of_build h).1
    refine ⟨kinds_of_makes hlayers, fun layer hlayer => ?_⟩
    obtain ⟨kind, -, rfl, hb⟩ := forall₂_mem_right hlayers hlayer
    exact hb

/-- Bars that are drawn as points, for which two more builders are offered, and lines. -/
def contestedBars : List Registration :=
  [⟨.geometry .bar, LayerKind.builder (.geometry .point), false⟩,
    ⟨.geometry .line, LayerKind.builder (.geometry .line), false⟩,
    ⟨.geometry .bar, LayerKind.builder (.geometry .line), false⟩,
    ⟨.geometry .bar, LayerKind.builder (.geometry .bar), true⟩]

/-- A plot of points, lines and bars, in this order. -/
def pointsLinesBars : Plot :=
  { Plot.ofAesthetics { x := [.int 1], y := [.int 2] } with
    declared := [.geometry .point, .geometry .line, .geometry .bar] }

theorem run_lastAccepted_contestedBars :
    (∀ c ∈ contestedBars, ∃ kind : LayerKind, c.builder = kind.builder) ∧
    (run contestedBars).kinds = [.geometry .bar, .geometry .line] ∧
    (run contestedBars).get? (.geometry .bar) = some (LayerKind.builder (.geometry .bar)) ∧
    ∃ layers told, pointsLinesBars.build {} (Style.ofSettings {} none) (run contestedBars) =
        .ok (layers, told) ∧ layers.map Layer.kind = [.geometry .line, .geometry .bar] := by
  have hcalls : ∀ c ∈ contestedBars, ∃ kind : LayerKind, c.builder = kind.builder := by
    intro c hc
    simp only [contestedBars, List.mem_cons, List.not_mem_nil, or_false] at hc
    rcases hc with rfl | rfl | rfl | rfl <;> exact ⟨_, rfl⟩
  obtain ⟨-, hget, -, hkinds, hbuild⟩ := run_lastAccepted contestedBars hcalls
  obtain ⟨hanswers, hlayers⟩ := hbuild pointsLinesBars {} (Style.ofSettings {} none)
  obtain ⟨⟨layers, told⟩, hout⟩ := hanswers.mpr fun h => Bool.false_ne_true h.1.1
  refine ⟨hcalls, hkinds, hget _, layers, told, hout, ?_⟩
  rw [(hlayers layers told hout).1]
  rfl

end Registry

end PlotScene
