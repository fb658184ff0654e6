import Koi.Painting
import Koi.Proofs.Mask.Coherence
import Mathlib.Data.List.TakeWhile

/-!
# Painting without a cache

A picture can be painted straight from the store. On a coherent cache, painting gives the same
picture or the same error, and the cache gains the masks up to the first layer without one.

* `Image.stamp_eq_overlay_tint`: a stamp is a tinted mask laid over the canvas.
* `Store.picture`: the picture of a koi without any cache; `Store.picture_eq_ok` says when there is
  one, `Store.picture_eq_error` which layer is missed otherwise.
* `Cache.Coherent.runOn_render`: what painting does to a coherent cache.
-/

namespace Koi

/-! ## Laying images over each other -/

namespace Image

/-- Images of the same size that show the same are equal. -/
theorem ext_pixel? {a b : Image} (width : a.width = b.width) (height : a.height = b.height)
    (pixel : ∀ x y, a.pixel? x y = b.pixel? x y) : a = b := by
  obtain ⟨w, h, pixels, size⟩ := a
  obtain ⟨w', h', pixels', size'⟩ := b
  simp only at width height
  subst width height
  have hp : pixels = pixels' := by
    apply Array.ext (by rw [size, size'])
    intro i hi hi'
    have hw : 0 < w := by
      rcases Nat.eq_zero_or_pos w with rfl | hw
      · omega
      · exact hw
    have hxy := pixel (i % w) (i / w)
    simp only [pixel?, Nat.mod_lt i hw, if_true, Nat.div_add_mod'] at hxy
    rw [Array.getElem?_eq_getElem hi, Array.getElem?_eq_getElem hi'] at hxy
    exact Option.some.inj hxy
  subst hp
  rfl

@[simp] theorem width_overlayWith (f : Pixel → Pixel) (canvas layer : Image) :
    (canvas.overlayWith f layer).width = canvas.width := by
  unfold overlayWith
  split <;> rfl

@[simp] theorem height_overlayWith (f : Pixel → Pixel) (canvas layer : Image) :
    (canvas.overlayWith f layer).height = canvas.height := by
  unfold overlayWith
  split <;> rfl

theorem stamp_eq_overlay_tint (canvas : Image) (color : Color) (mask : Image) :
    canvas.stamp color mask = canvas.overlay (mask.tint color) := by
  apply ext_pixel?
  · rw [stamp, overlay, width_overlayWith, width_overlayWith]
  · rw [stamp, overlay, height_overlayWith, height_overlayWith]
  · exact pixel?_stamp canvas color mask

/-- Layers change what a canvas shows, not its size. -/
theorem size_foldl_overlay (layers : List Image) (canvas : Image) :
    (layers.foldl overlay canvas).width = canvas.width ∧
      (layers.foldl overlay canvas).height = canvas.height := by
  induction layers generalizing canvas with
  | nil => exact ⟨rfl, rfl⟩
  | cons layer rest ih =>
    obtain ⟨hw, hh⟩ := ih (canvas.overlay layer)
    rw [List.foldl_cons, hw, hh, overlay, width_overlayWith, height_overlayWith]
    exact ⟨rfl, rfl⟩

end Image

theorem width_canvas (background : Option Color) (size : Nat) :
    (canvas background size).width = size := by
  cases background <;> rfl

theorem height_canvas (background : Option Color) (size : Nat) :
    (canvas background size).height = size := by
  cases background <;> rfl

/-! ## Pictures straight from the store -/

/-- The names of all layers of a koi, in the order in which they are painted. -/
def Attributes.layerNames (a : Attributes) : List LayerName :=
  a.paintedLayers.map Layer.name ++ [.outline]

namespace Store

/-- A layer's mask in a size and in the layer's color, without any cache. -/
def tinted (store : Store) (size : UInt32) (layer : Layer) : Except Error Image := do
  return ((← store.get layer.name).resize size.toNat).tint layer.color

/-- The picture of a koi, without any cache. The size is checked first; then the masks are looked
    up from the back to the front, and the first one that is missing ends the work. -/
def picture (store : Store) (a : Attributes) (background : Option Color) (size : UInt32) :
    Except Error Image := do
  let size ← checkSize size
  let body ← store.tinted size ⟨.body, a.bodyColor⟩
  let fin ← store.tinted size ⟨.fin, a.finColor⟩
  let bodyLayers ← a.bodyLayers.mapM (store.tinted size)
  let headLayers ← a.headLayers.mapM (store.tinted size)
  let finLayers ← a.finLayers.mapM (store.tinted size)
  let outline := (← store.get .outline).resize size.toNat
  return ([body, fin] ++ bodyLayers ++ headLayers ++ finLayers ++ [outline]).foldl Image.overlay
    (canvas background size.toNat)

/-- A layer's mask in a size, with the color of the layer, without any cache. -/
def colored (store : Store) (size : UInt32) (layer : Layer) : Except Error (Color × Image) := do
  return (layer.color, (← store.get layer.name).resize size.toNat)

/-- A mask tinted in the color that comes with it. -/
def tintColored (mask : Color × Image) : Image := mask.2.tint mask.1

theorem tinted_eq (store : Store) (size : UInt32) (layer : Layer) :
    store.tinted size layer = tintColored <$> store.colored size layer := by
  unfold tinted colored
  cases store.get layer.name <;> rfl

theorem mapM_tinted (store : Store) (size : UInt32) (layers : List Layer) :
    layers.mapM (store.tinted size) =
      List.map tintColored <$> layers.mapM (store.colored size) := by
  induction layers with
  | nil => rfl
  | cons layer rest ih =>
    rw [List.mapM_cons, List.mapM_cons, ih, tinted_eq]
    simp only [map_eq_pure_bind, bind_assoc, pure_bind, List.map_cons]

theorem foldl_stamp (canvas : Image) (masks : List (Color × Image)) :
    masks.foldl (fun picture mask => picture.stamp mask.1 mask.2) canvas =
      (masks.map tintColored).foldl Image.overlay canvas := by
  rw [List.foldl_map]
  congr 1
  funext picture mask
  exact picture.stamp_eq_overlay_tint mask.1 mask.2

/-- The masks may be stamped where they are painted. -/
theorem picture_eq {size : UInt32} (valid : ValidSize size) (store : Store) (a : Attributes)
    (background : Option Color) : store.picture a background size = (do
      let masks ← a.paintedLayers.mapM (store.colored size)
      let outline ← store.get .outline
      return (masks.foldl (fun picture mask => picture.stamp mask.1 mask.2)
        (canvas background size.toNat)).overlay (outline.resize size.toNat)) := by
  unfold picture
  rw [checkSize_of_valid valid, Attributes.paintedLayers, a.patterns_eq]
  simp only [mapM_tinted, tinted_eq, foldl_stamp, List.mapM_cons, List.mapM_append,
    map_eq_pure_bind, bind_assoc, pure_bind, List.map_cons, List.map_append, List.foldl_append,
    List.cons_append, List.nil_append, List.foldl_cons, List.foldl_nil]
  rfl

/-! ## Outcomes -/

theorem mapM_colored_ok {store : Store} (size : UInt32) {layers : List Layer}
    (known : ∀ layer ∈ layers, store.contains layer.name = true) :
    ∃ masks, layers.mapM (store.colored size) = .ok masks := by
  induction layers with
  | nil => exact ⟨[], rfl⟩
  | cons layer rest ih =>
    obtain ⟨mask, hm, -⟩ := get_of_contains (known layer List.mem_cons_self)
    obtain ⟨masks, hr⟩ := ih fun other ho => known other (List.mem_cons_of_mem layer ho)
    rw [List.mapM_cons, hr, colored, hm]
    exact ⟨_, rfl⟩

theorem mapM_colored_error {store : Store} (size : UInt32) {layers : List Layer}
    {missing : LayerName}
    (h : (layers.map Layer.name).find? (fun name => !store.contains name) = some missing) :
    layers.mapM (store.colored size) = .error (.unknownAsset missing.render) := by
  induction layers with
  | nil => simp at h
  | cons layer rest ih =>
    rw [List.mapM_cons, colored]
    rw [List.map_cons, List.find?_cons] at h
    cases hc : store.contains layer.name with
    | true =>
      obtain ⟨mask, hm, -⟩ := get_of_contains hc
      rw [hc] at h
      rw [hm, ih h]
      rfl
    | false =>
      rw [hc] at h
      rw [get_of_not_contains hc, ← Option.some.inj h]
      rfl

/-- There is a picture in every valid size if no layer misses its mask, and it has that size. -/
theorem picture_eq_ok {store : Store} {a : Attributes} {size : UInt32} (valid : ValidSize size)
    (known : ∀ name ∈ a.layerNames, store.contains name = true) (background : Option Color) :
    ∃ image, store.picture a background size = .ok image ∧
      image.width = size.toNat ∧ image.height = size.toNat := by
  simp only [Attributes.layerNames, List.mem_append, List.mem_map, List.mem_singleton] at known
  obtain ⟨masks, hm⟩ : ∃ masks, a.paintedLayers.mapM (store.colored size) = .ok masks :=
    mapM_colored_ok size fun layer hl => known layer.name (.inl ⟨layer, hl, rfl⟩)
  obtain ⟨outline, ho, -⟩ := get_of_contains (known .outline (.inr rfl))
  have hs := Image.size_foldl_overlay (masks.map tintColored) (canvas background size.toNat)
  rw [width_canvas, height_canvas] at hs
  rw [picture_eq valid, hm, ho]
  refine ⟨_, rfl, ?_⟩
  rwa [foldl_stamp, Image.overlay, Image.width_overlayWith, Image.height_overlayWith]

/-- Without the mask of some layer there is no picture; the first such layer is named. -/
theorem picture_eq_error {store : Store} {a : Attributes} {size : UInt32} (valid : ValidSize size)
    {missing : LayerName}
    (h : a.layerNames.find? (fun name => !store.contains name) = some missing)
    (background : Option Color) :
    store.picture a background size = .error (.unknownAsset missing.render) := by
  rw [picture_eq valid]
  rw [Attributes.layerNames, List.find?_append] at h
  cases hf : (a.paintedLayers.map Layer.name).find? (fun name => !store.contains name) with
  | some name =>
    rw [hf, Option.some_or] at h
    rw [mapM_colored_error size hf, Option.some.inj h]
    rfl
  | none =>
    rw [hf, Option.none_or, List.find?_singleton] at h
    obtain ⟨masks, hm⟩ : ∃ masks, a.paintedLayers.mapM (store.colored size) = .ok masks :=
      mapM_colored_ok size fun layer hl => by
        simpa using List.find?_eq_none.1 hf layer.name (List.mem_map_of_mem hl)
    cases hc : store.contains .outline with
    | true => simp [hc] at h
    | false =>
      have ho : LayerName.outline = missing := by simpa [hc] using h
      rw [hm, get_of_not_contains hc, ho]
      rfl

theorem picture_of_not_valid (store : Store) (a : Attributes) (background : Option Color)
    {size : UInt32} (h : ¬ ValidSize size) :
    store.picture a background size = .error .invalidDimensions := by
  rw [picture, checkSize_of_not_valid h]
  rfl

end Store

/-! ## Painting on a coherent cache -/

/-- The keys that painting a koi asks for: those of its layers up to the first one without a mask,
    in painting order. There are none in a size that an image may not have. -/
def renderKeys (store : Store) (a : Attributes) (size : UInt32) : List MaskKey :=
  if ValidSize size then (a.layerNames.takeWhile store.contains).map (MaskKey.mk size) else []

theorem takeWhile_append_of_find? {names : List LayerName} {p : LayerName → Bool}
    {found : LayerName} (h : names.find? (fun name => !p name) = some found)
    (rest : List LayerName) : (names ++ rest).takeWhile p = names.takeWhile p := by
  induction names with
  | nil => simp at h
  | cons name names ih =>
    rw [List.find?_cons] at h
    cases hp : p name with
    | true =>
      rw [hp] at h
      rw [List.cons_append, List.takeWhile_cons_of_pos hp, List.takeWhile_cons_of_pos hp, ih h]
    | false =>
      rw [List.cons_append, List.takeWhile_cons_of_neg (by simp [hp]),
        List.takeWhile_cons_of_neg (by simp [hp])]

namespace Cache

variable {store : Store} {cache : Cache}

theorem fillAll_takeWhile_singleton (store : Store) (cache : Cache) (size : UInt32)
    (name : LayerName) :
    cache.fillAll store (([name].takeWhile store.contains).map (MaskKey.mk size)) =
      cache.fill store ⟨size, name⟩ := by
  cases hc : store.contains name with
  | true =>
    rw [List.takeWhile_cons_of_pos hc]
    rfl
  | false =>
    rw [List.takeWhile_cons_of_neg (by simp [hc]), fill_of_none (Store.scaled?_of_not_contains hc)]
    rfl

namespace Coherent

theorem runOn_fetch_of_valid (h : Coherent store cache) {size : UInt32} (valid : ValidSize size)
    (name : LayerName) : (fetch store name size).runOn cache =
      ((store.get name).map fun mask => mask.resize size.toNat,
        cache.fill store ⟨size, name⟩) := by
  rw [h.runOn_fetch, if_pos valid, Store.scaled_of_valid valid]

theorem runOn_fetchLayer (h : Coherent store cache) {size : UInt32} (valid : ValidSize size)
    (layer : Layer) : (fetchLayer store size layer).runOn cache =
      (store.colored size layer, cache.fill store ⟨size, layer.name⟩) := by
  rw [fetchLayer, CacheM.runOn_bind, h.runOn_fetch_of_valid valid, Store.colored]
  cases store.get layer.name <;> rfl

/-- Fetching several masks ends with the first one that is missing. Whatever was scaled before it
    stays in the cache. -/
theorem runOn_mapM_fetchLayer (h : Coherent store cache) {size : UInt32} (valid : ValidSize size)
    (layers : List Layer) : CacheM.runOn (layers.mapM (fetchLayer store size)) cache =
      (layers.mapM (store.colored size), cache.fillAll store
        (((layers.map Layer.name).takeWhile store.contains).map (MaskKey.mk size))) := by
  induction layers generalizing cache with
  | nil => rfl
  | cons layer rest ih =>
    have hf := h.runOn_fetchLayer valid layer
    have hleft : Coherent store (cache.fill store ⟨size, layer.name⟩) := h.fill valid
    rw [List.mapM_cons, List.mapM_cons, List.map_cons]
    cases hc : store.contains layer.name with
    | true =>
      obtain ⟨mask, hm, -⟩ := Store.get_of_contains hc
      rw [List.takeWhile_cons_of_pos hc, List.map_cons]
      rw [Store.colored, hm] at hf ⊢
      rw [CacheM.runOn_bind_ok hf, CacheM.runOn_bind, ih hleft]
      cases rest.mapM (store.colored size) <;> rfl
    | false =>
      rw [List.takeWhile_cons_of_neg (by simp [hc])]
      rw [Store.colored, Store.get_of_not_contains hc,
        fill_of_none (Store.scaled?_of_not_contains hc)] at hf
      rw [CacheM.runOn_bind_error hf, Store.colored, Store.get_of_not_contains hc]
      rfl

theorem runOn_paint (h : Coherent store cache) {size : UInt32} (valid : ValidSize size)
    (a : Attributes) (background : Option Color) :
    (paint store a size (canvas background size.toNat)).runOn cache =
      (store.picture a background size, cache.fillAll store
        ((a.layerNames.takeWhile store.contains).map (MaskKey.mk size))) := by
  have hm := h.runOn_mapM_fetchLayer valid a.paintedLayers
  rw [paint, Store.picture_eq valid, Attributes.layerNames]
  cases hf : (a.paintedLayers.map Layer.name).find? (fun name => !store.contains name) with
  | some missing =>
    -- the outline is not asked for
    rw [Store.mapM_colored_error size hf] at hm ⊢
    rw [takeWhile_append_of_find? hf, CacheM.runOn_bind_error hm]
    rfl
  | none =>
    have known : ∀ name ∈ a.paintedLayers.map Layer.name, store.contains name = true :=
      fun name hn => by simpa using List.find?_eq_none.1 hf name hn
    obtain ⟨masks, hk⟩ : ∃ masks, a.paintedLayers.mapM (store.colored size) = .ok masks :=
      Store.mapM_colored_ok size fun layer hl => known layer.name (List.mem_map_of_mem hl)
    rw [hk, List.takeWhile_eq_self_iff.2 known] at hm
    have hleft : Coherent store
        (cache.fillAll store ((a.paintedLayers.map Layer.name).map (MaskKey.mk size))) := by
      apply h.fillAll
      intro key hkey
      obtain ⟨name, -, rfl⟩ := List.mem_map.1 hkey
      exact valid
    rw [CacheM.runOn_bind_ok hm, CacheM.runOn_bind, hleft.runOn_fetch_of_valid valid, hk,
      List.takeWhile_append_of_pos known, List.map_append, fillAll_append,
      fillAll_takeWhile_singleton]
    cases store.get .outline <;> rfl

/-- Painting gives the picture that the store has, and scales the masks of the layers. -/
theorem runOn_render (h : Coherent store cache) (a : Attributes) (background : Option Color)
    (size : UInt32) : (render store a background size).runOn cache =
      (store.picture a background size, cache.fillAll store (renderKeys store a size)) := by
  unfold render renderKeys
  by_cases valid : ValidSize size
  · rw [checkSize_of_valid valid, if_pos valid, CacheM.runOn_bind_ok (CacheM.runOn_liftM _ _),
      h.runOn_paint valid]
  · rw [checkSize_of_not_valid valid, if_neg valid, Store.picture_of_not_valid store a _ valid]
    rfl

end Coherent

end Cache

end Koi
