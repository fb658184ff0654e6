import Koi.Proofs.Warming

/-!
# What a painting leaves in the cache

The masks of a koi are fetched one after another, and the first one that is missing ends the work.
By then the cache has the masks before it, whether or not there is a picture in the end.

* `Cache.newKeys`, `Cache.Gained`: the masks that a cache does not hold yet, and a cache that holds
  them as well.
* `Cache.Coherent.gained_fillAll`: filling is such a gain, however often a layer is named.
* `Cache.render_after`: the outcome of a painting after every history, with what it leaves.
-/

namespace Koi

theorem Attributes.layerNames_eq (a : Attributes) :
    a.layerNames = [.body, .fin] ++ a.bodyLayers.map Layer.name ++ a.headLayers.map Layer.name ++
      a.finLayers.map Layer.name ++ [.outline] := by
  simp [layerNames, paintedLayers, a.patterns_eq]

namespace Store

variable {store : Store} {names : List LayerName}

/-- The first name without a mask, with the names before it. -/
theorem exists_first_missing (h : ¬ ∀ name ∈ names, store.contains name = true) :
    ∃ before missing rest, names = before ++ missing :: rest ∧
      (∀ name ∈ before, store.contains name = true) ∧ store.contains missing = false := by
  have hf : (names.find? fun name => !store.contains name) ≠ none := by
    simpa [List.find?_eq_none] using h
  obtain ⟨missing, hm⟩ := Option.ne_none_iff_exists'.1 hf
  obtain ⟨absent, before, rest, split, present⟩ := List.find?_eq_some_iff_append.1 hm
  exact ⟨before, missing, rest, split, by simpa using present, by simpa using absent⟩

theorem takeWhile_contains_eq {before rest : List LayerName} {missing : LayerName}
    (split : names = before ++ missing :: rest)
    (known : ∀ name ∈ before, store.contains name = true)
    (unknown : store.contains missing = false) : names.takeWhile store.contains = before := by
  rw [split, List.takeWhile_append_of_pos known, List.takeWhile_cons_of_neg (by simp [unknown]),
    List.append_nil]

end Store

namespace Cache

variable {store : Store} {cache : Cache}

/-! ## Gains -/

/-- The keys of some layers in a size that the cache does not hold. -/
def newKeys (cache : Cache) (size : UInt32) (names : List LayerName) : Finset MaskKey :=
  (names.map (MaskKey.mk size)).toFinset.filter fun key => cache.contains key = false

/-- The cache `left` holds what `cache` does, unchanged, and the masks of some layers in a size
    beside it. Each mask that was not there has been scaled once. -/
structure Gained (cache left : Cache) (size : UInt32) (names : List LayerName) : Prop where
  kept : ∀ {key : MaskKey} {image : Image}, cache.images[key]? = some image →
    left.images[key]? = some image
  gained_iff : ∀ key : MaskKey, cache.contains key = false ∧ left.contains key = true ↔
    key.size = size ∧ key.name ∈ names ∧ cache.contains key = false
  scaleCount_eq : left.scaleCount = cache.scaleCount + (cache.newKeys size names).card

theorem mem_map_mk_iff {size : UInt32} {names : List LayerName} {key : MaskKey} :
    key ∈ names.map (MaskKey.mk size) ↔ key.size = size ∧ key.name ∈ names := by
  rw [List.mem_map]
  constructor
  · rintro ⟨name, hn, rfl⟩
    exact ⟨rfl, hn⟩
  · rintro ⟨rfl, hn⟩
    exact ⟨key.name, hn, rfl⟩

namespace Coherent

/-- A mask is scaled once, even if it is asked for several times. -/
theorem fillAll_dedup (h : Coherent store cache) {keys : List MaskKey}
    (valid : ∀ key ∈ keys, ValidSize key.size) :
    cache.fillAll store keys.dedup = cache.fillAll store keys := by
  -- Both are coherent, so it is enough that they hold the same keys.
  apply eq_of_contains (h.fillAll fun key hk => valid key (List.mem_dedup.1 hk)) (h.fillAll valid)
  intro key
  simp only [contains_fillAll, List.mem_dedup]

theorem scaleCount_fillAll (h : Coherent store cache) {keys : List MaskKey}
    (valid : ∀ key ∈ keys, ValidSize key.size)
    (known : ∀ key ∈ keys, store.contains key.name = true) :
    (cache.fillAll store keys).scaleCount =
      cache.scaleCount + (keys.toFinset.filter fun key => cache.contains key = false).card := by
  have hset : (cache.absent keys.dedup).toFinset =
      keys.toFinset.filter fun key => cache.contains key = false := by
    ext key
    simp [absent]
  have hnodup : (cache.absent keys.dedup).Nodup := keys.nodup_dedup.filter _
  rw [← h.fillAll_dedup valid, Cache.scaleCount_fillAll keys.nodup_dedup
      fun key hk => known key (List.mem_dedup.1 hk),
    ← hset, List.toFinset_card_of_nodup hnodup]

/-- Filling in the masks of layers that have one gains just these. -/
theorem gained_fillAll (h : Coherent store cache) {size : UInt32} (valid : ValidSize size)
    {names : List LayerName} (known : ∀ name ∈ names, store.contains name = true) :
    Gained cache (cache.fillAll store (names.map (MaskKey.mk size))) size names where
  kept := by
    intro key image hi
    rw [getElem?_fillAll, hi, Option.some_or]
  gained_iff := by
    intro key
    rw [contains_fillAll]
    cases hc : cache.contains key with
    | true => simp
    | false =>
      simp only [Bool.false_or, Bool.and_eq_true, decide_eq_true_eq, mem_map_mk_iff, true_and,
        and_true, and_iff_left_iff_imp]
      exact fun hk => known key.name hk.2
  scaleCount_eq := by
    apply h.scaleCount_fillAll
    · intro key hk
      rw [(mem_map_mk_iff.1 hk).1]
      exact valid
    · exact fun key hk => known key.name (mem_map_mk_iff.1 hk).2

/-! ## Paintings -/

theorem runOn_render_of_known (h : Coherent store cache) {size : UInt32} (valid : ValidSize size)
    {a : Attributes} (known : ∀ name ∈ a.layerNames, store.contains name = true)
    (background : Option Color) :
    ∃ image left, (render store a background size).runOn cache = (.ok image, left) ∧
      Gained cache left size a.layerNames := by
  obtain ⟨image, hi, -⟩ := Store.picture_eq_ok valid known background
  refine ⟨image, _, ?_, h.gained_fillAll valid known⟩
  rw [h.runOn_render, hi, renderKeys, if_pos valid, List.takeWhile_eq_self_iff.2 known]

theorem runOn_render_of_missing (h : Coherent store cache) {size : UInt32}
    (valid : ValidSize size) {a : Attributes} {before rest : List LayerName} {missing : LayerName}
    (split : a.layerNames = before ++ missing :: rest)
    (known : ∀ name ∈ before, store.contains name = true)
    (unknown : store.contains missing = false) (background : Option Color) :
    ∃ left, (render store a background size).runOn cache =
        (.error (.unknownAsset missing.render), left) ∧ Gained cache left size before := by
  have hf : a.layerNames.find? (fun name => !store.contains name) = some missing :=
    List.find?_eq_some_iff_append.2
      ⟨by simp [unknown], before, rest, split, by simpa using known⟩
  refine ⟨_, ?_, h.gained_fillAll valid known⟩
  rw [h.runOn_render, Store.picture_eq_error valid hf, renderKeys, if_pos valid,
    Store.takeWhile_contains_eq split known unknown]

theorem runOn_render_of_not_valid (h : Coherent store cache) {size : UInt32}
    (invalid : ¬ ValidSize size) (a : Attributes) (background : Option Color) :
    (render store a background size).runOn cache = (.error .invalidDimensions, cache) := by
  rw [h.runOn_render, Store.picture_of_not_valid store a background invalid, renderKeys,
    if_neg invalid]
  rfl

end Coherent

/-- After every history of requests, painting any koi, over nothing or over a color: a size that
    images may not have is refused, and nothing changes. Otherwise there is a picture if every
    layer has a mask, and the cache gains the masks of all layers. If not, the failure names the
    first layer without a mask, and the cache gains the masks of the layers before it. -/
theorem render_after (store : Store) (history : List Request) (a : Attributes)
    (background : Option Color) (size : UInt32) :
    a.layerNames = [.body, .fin] ++ a.bodyLayers.map Layer.name ++ a.headLayers.map Layer.name ++
      a.finLayers.map Layer.name ++ [.outline] ∧
    (size.toNat = 0 ∨ 4096 < size.toNat →
      (render store a background size).runOn (after store history) =
        (.error .invalidDimensions, after store history)) ∧
    (1 ≤ size.toNat ∧ size.toNat ≤ 4096 →
      ((∀ name ∈ a.layerNames, store.contains name = true) → ∃ image left,
        (render store a background size).runOn (after store history) = (.ok image, left) ∧
        Gained (after store history) left size a.layerNames) ∧
      ((¬ ∀ name ∈ a.layerNames, store.contains name = true) → ∃ before missing rest left,
        a.layerNames = before ++ missing :: rest ∧
        (∀ name ∈ before, store.contains name = true) ∧ store.contains missing = false ∧
        (render store a background size).runOn (after store history) =
          (.error (.unknownAsset missing.render), left) ∧
        Gained (after store history) left size before)) := by
  have h := coherent_after store history
  refine ⟨a.layerNames_eq, ?_, ?_⟩
  · intro hs
    have invalid : ¬ ValidSize size := by
      unfold ValidSize maxEdge
      omega
    exact h.runOn_render_of_not_valid invalid a background
  · intro (valid : ValidSize size)
    refine ⟨fun known => h.runOn_render_of_known valid known background, fun hn => ?_⟩
    obtain ⟨before, missing, rest, split, known, unknown⟩ := Store.exists_first_missing hn
    obtain ⟨left, run, gained⟩ := h.runOn_render_of_missing valid split known unknown background
    exact ⟨before, missing, rest, left, split, known, unknown, run, gained⟩

/-- A koi that wears a pattern twice and the fins as a pattern, with the mask of the fins already
    scaled: without the mask of its last pattern two more masks are scaled, with it five. -/
theorem render_after_repeated_layers :
    ∃ (store complete : Store) (history : List Request) (a : Attributes) (image : Image)
      (left left' : Cache),
      (render store a none 2).runOn (after store history) =
        (.error (.unknownAsset "body_9"), left) ∧
      (after store history).scaleCount = 1 ∧ left.scaleCount = 3 ∧
      left.contains ⟨2, .pattern .body 1⟩ = true ∧ left.contains ⟨2, .outline⟩ = false ∧
      (render complete a none 2).runOn (after complete history) = (.ok image, left') ∧
      left'.scaleCount = 5 ∧
      (render complete a none 5000).runOn (after complete history) =
        (.error .invalidDimensions, after complete history) := by
  let mask := Image.pair (.rgba 0 0 0 255) .clear
  let store := (((Store.empty.insert .body mask).insert .fin mask).insert .outline mask).insert
    (.pattern .body 1) mask
  let complete := store.insert (.pattern .body 9) mask
  let history : List Request := [.fetch .fin 2, .fetch .body 0]
  let layer (name : LayerName) : Layer := ⟨name, ⟨0, 0, 0⟩⟩
  let worn : List Layer :=
    [layer (.pattern .body 1), layer .fin, layer (.pattern .body 1), layer (.pattern .body 9)]
  let a : Attributes := ⟨.kohaku, worn, [], [], ⟨0, 0, 0⟩, ⟨0, 0, 0⟩, ⟨0, 0, 0⟩⟩
  let present : List LayerName := [.body, .fin, .pattern .body 1, .fin, .pattern .body 1]
  have one : (after store history).scaleCount = 1 := rfl
  have one' : (after complete history).scaleCount = 1 := rfl
  obtain ⟨-, -, painted⟩ := render_after store history a none 2
  obtain ⟨before, missing, rest, left, split, known, unknown, run, gained⟩ :=
    (painted (by decide)).2 (by decide)
  obtain rfl : before = present :=
    (Store.takeWhile_contains_eq split known unknown).symm.trans (by decide)
  replace split : present ++ [.pattern .body 9, .outline] = present ++ missing :: rest := split
  obtain ⟨rfl, rfl⟩ := List.cons.inj (List.append_cancel_left split)
  obtain ⟨-, -, painted'⟩ := render_after complete history a none 2
  obtain ⟨image, left', run', gained'⟩ := (painted' (by decide)).1 (by decide)
  obtain ⟨-, refused, -⟩ := render_after complete history a none 5000
  refine ⟨store, complete, history, a, image, left, left', run, one, ?_, ?_, ?_, run', ?_,
    refused (by decide)⟩
  · rw [gained.scaleCount_eq, one]
    decide
  · exact ((gained.gained_iff _).2 (by decide)).2
  · rw [Bool.eq_false_iff]
    exact fun hc => absurd ((gained.gained_iff _).1 ⟨by decide, hc⟩).2.1 (by decide)
  · rw [gained'.scaleCount_eq, one']
    decide

end Cache

end Koi
