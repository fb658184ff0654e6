import Koi.Proofs.Painting

/-!
# Histories of a cache

Masks are fetched, sizes are warmed and koi are painted in any order, and some of it fails. Each
request only fills in masks whose keys it names, whatever the cache holds. So a cache after a
history depends on the set of these keys alone.

* `Request.serve`, `Cache.after`: a request on a cache, and the cache that a history leaves.
* `Request.leave_eq_fillAll`: the step; `Cache.after_eq_fillAll`, `Cache.coherent_after`: the run.
* `Cache.after_invariant`: what holds of the cache after every history.
* `Cache.after_transparent`: masks and pictures do not depend on the history.
-/

namespace Koi

/-- A request to a cache. -/
inductive Request where
  | fetch (name : LayerName) (size : UInt32)
  | warm (sizes : List UInt32)
  | render (attributes : Attributes) (background : Option Color) (size : UInt32)

/-- What comes of a request that succeeds. -/
inductive Reply where
  | image (image : Image)
  | counts (counts : WarmCounts)

namespace Request

def serve (store : Store) : Request → CacheM Reply
  | .fetch name size => return .image (← Cache.fetch store name size)
  | .warm sizes => return .counts (← Cache.warm store sizes)
  | .render attributes background size =>
    return .image (← Koi.render store attributes background size)

/-- The cache that a request leaves, whether it succeeds or not. -/
def leave (store : Store) (cache : Cache) (request : Request) : Cache :=
  ((request.serve store).runOn cache).2

/-- The keys that a request asks for. -/
def keys (store : Store) : Request → List MaskKey
  | .fetch name size => if ValidSize size then [⟨size, name⟩] else []
  | .warm sizes =>
    if ValidSizes sizes then Cache.warmKeys store sizes.eraseDups else []
  | .render attributes _ size => renderKeys store attributes size

end Request

/-- The cache that is left of an empty one by a history of requests. -/
def Cache.after (store : Store) (history : List Request) : Cache :=
  history.foldl (Request.leave store) Cache.empty

/-! ## One request -/

namespace Request

variable {store : Store} {cache : Cache}

theorem validSize_of_mem_keys {request : Request} {key : MaskKey} (h : key ∈ request.keys store) :
    ValidSize key.size := by
  cases request with
  | fetch name size =>
    rw [keys] at h
    split at h
    · next valid => rwa [List.mem_singleton.1 h]
    · simp at h
  | warm sizes =>
    rw [keys] at h
    split at h
    · next valid =>
      exact valid _ (List.mem_eraseDups.1 ((Cache.mem_warmKeys_iff store _ key).1 h).1)
    · simp at h
  | render attributes background size =>
    rw [keys, renderKeys] at h
    split at h
    · next valid =>
      obtain ⟨name, -, rfl⟩ := List.mem_map.1 h
      exact valid
    · simp at h

/-- A request fills in the masks of its keys. -/
theorem leave_eq_fillAll (h : Cache.Coherent store cache) (request : Request) :
    request.leave store cache = cache.fillAll store (request.keys store) := by
  cases request with
  | fetch name size =>
    rw [leave, serve, keys, CacheM.runOn_map, h.runOn_fetch]
    split <;> rfl
  | warm sizes =>
    rw [leave, serve, keys, CacheM.runOn_map, Cache.runOn_warm]
    split <;> rfl
  | render attributes background size =>
    rw [leave, serve, keys, CacheM.runOn_map, h.runOn_render]

theorem coherent_leave (h : Cache.Coherent store cache) (request : Request) :
    Cache.Coherent store (request.leave store cache) := by
  rw [leave_eq_fillAll h]
  exact h.fillAll fun key hk => validSize_of_mem_keys hk

/-- What the cache holds stays as it is. -/
theorem getElem?_leave (h : Cache.Coherent store cache) (request : Request) {key : MaskKey}
    {image : Image} (hi : cache.images[key]? = some image) :
    (request.leave store cache).images[key]? = some image := by
  rw [leave_eq_fillAll h, Cache.getElem?_fillAll, hi, Option.some_or]

end Request

/-! ## Histories -/

namespace Cache

variable {store : Store} {cache : Cache}

theorem coherent_foldl_leave (h : Coherent store cache) (history : List Request) :
    Coherent store (history.foldl (Request.leave store) cache) := by
  induction history generalizing cache with
  | nil => exact h
  | cons request rest ih => exact ih (Request.coherent_leave h request)

theorem coherent_after (store : Store) (history : List Request) :
    Coherent store (after store history) :=
  coherent_foldl_leave (Coherent.empty store) history

theorem foldl_leave_eq_fillAll (h : Coherent store cache) (history : List Request) :
    history.foldl (Request.leave store) cache =
      cache.fillAll store (history.flatMap (Request.keys store)) := by
  induction history generalizing cache with
  | nil => rfl
  | cons request rest ih =>
    rw [List.foldl_cons, ih (Request.coherent_leave h request), Request.leave_eq_fillAll h,
      List.flatMap_cons, fillAll_append]

/-- A history fills in the masks of all keys that its requests ask for. -/
theorem after_eq_fillAll (store : Store) (history : List Request) :
    after store history = empty.fillAll store (history.flatMap (Request.keys store)) :=
  foldl_leave_eq_fillAll (Coherent.empty store) history

/-- The cache holds the masks that were asked for and that the store has. -/
theorem contains_after_iff (store : Store) (history : List Request) (key : MaskKey) :
    (after store history).contains key = true ↔
      (∃ request ∈ history, key ∈ request.keys store) ∧ store.contains key.name = true := by
  rw [after_eq_fillAll, contains_fillAll]
  simp [contains, empty]

/-- The order of the requests has no influence. -/
theorem after_eq_of_perm (store : Store) {history other : List Request}
    (h : history.Perm other) : after store history = after store other := by
  apply (coherent_after store history).eq_of_contains (coherent_after store other)
  intro key
  rw [Bool.eq_iff_iff, contains_after_iff, contains_after_iff]
  simp only [h.mem_iff]

/-! ## Requests that fail -/

theorem Coherent.left_of_fetch_error (h : Coherent store cache) {name : LayerName} {size : UInt32}
    {e : Error} {left : Cache} (he : (fetch store name size).runOn cache = (.error e, left)) :
    left = cache := by
  rw [h.runOn_fetch, Prod.mk.injEq] at he
  obtain ⟨hs, rfl⟩ := he
  by_cases valid : ValidSize size
  · rw [if_pos valid]
    cases hi : store.scaled? ⟨size, name⟩ with
    | some image =>
      rw [Store.scaled_of_some valid hi] at hs
      cases hs
    | none => exact fill_of_none hi
  · exact if_neg valid

theorem left_of_warm_error {sizes : List UInt32} {e : Error} {left : Cache}
    (he : (warm store sizes).runOn cache = (.error e, left)) : left = cache := by
  rw [runOn_warm] at he
  split at he
  · simp at he
  · exact (Prod.mk.inj he).2.symm

/-! ## The invariant -/

/-- After every history of requests, successful or not: a cached image is the store's mask of its
    layer, scaled to a square of a size that images may have; as many masks were scaled as there are
    images; a further request keeps every image, and a fetch or a warming that fails leaves all as
    it was; and the history in another order ends with the same cache. -/
theorem after_invariant (store : Store) (history : List Request) :
    (∀ (key : MaskKey) (image : Image), (after store history).images[key]? = some image →
      (1 ≤ key.size.toNat ∧ key.size.toNat ≤ 4096) ∧
        (image.width = key.size.toNat ∧ image.height = key.size.toNat) ∧
        ∃ mask, store.get? key.name = some mask ∧ image = mask.resize key.size.toNat) ∧
    (after store history).size = (after store history).scaleCount ∧
    (∀ (request : Request) (key : MaskKey) (image : Image),
      (after store history).images[key]? = some image →
        (after store (history ++ [request])).images[key]? = some image) ∧
    (∀ (name : LayerName) (size : UInt32) (e : Error) (left : Cache),
      (fetch store name size).runOn (after store history) = (.error e, left) →
        left = after store history) ∧
    (∀ (sizes : List UInt32) (e : Error) (left : Cache),
      (warm store sizes).runOn (after store history) = (.error e, left) →
        left = after store history) ∧
    (∀ other : List Request, history.Perm other → after store other = after store history) := by
  have h := coherent_after store history
  refine ⟨?_, h.size_eq, ?_, ?_, ?_, ?_⟩
  · intro key image hi
    obtain ⟨mask, hm, rfl⟩ := Option.map_eq_some_iff.1 (h.image_eq hi)
    exact ⟨h.validSize hi, mask.size_resize _, mask, hm, rfl⟩
  · intro request key image hi
    have hl : after store (history ++ [request]) = request.leave store (after store history) :=
      List.foldl_append
    rw [hl]
    exact Request.getElem?_leave h request hi
  · intro name size e left he
    exact h.left_of_fetch_error he
  · intro sizes e left he
    exact left_of_warm_error he
  · intro other hp
    exact (after_eq_of_perm store hp).symm

/-- A store with one mask of two pixels, and a history of a fetch that fails, one that succeeds, a
    warming that fails and another that finds all in the cache. -/
theorem after_invariant_one_mask :
    ∃ (store : Store) (history other : List Request) (image : Image) (e e' : Error),
      (after store history).images[MaskKey.mk 1 .body]? = some image ∧
      (image.width = 1 ∧ image.height = 1) ∧
      (∃ mask, store.get? .body = some mask ∧ image = mask.resize 1) ∧
      (after store history).size = 1 ∧ (after store history).scaleCount = 1 ∧
      (fetch store .fin 1).runOn (after store history) = (.error e, after store history) ∧
      (warm store [0]).runOn (after store history) = (.error e', after store history) ∧
      history ≠ other ∧ after store other = after store history := by
  let store := Store.empty.insert .body (.pair (.rgba 255 0 0 255) (.rgba 0 0 255 128))
  let fetches : List Request := [.fetch .fin 1, .fetch .body 1]
  let warms : List Request := [.warm [0], .warm [1, 1]]
  obtain ⟨images, size, -, fetched, warmed, order⟩ := after_invariant store (fetches ++ warms)
  have hb : (after store (fetches ++ warms)).images[MaskKey.mk 1 .body]? =
      some (Image.filled 1 1 (.rgba 128 0 128 192)) := by decide +kernel
  have hc : (after store (fetches ++ warms)).scaleCount = 1 := rfl
  have hf : ((fetch store .fin 1).runOn (after store (fetches ++ warms))).1 =
      .error (.unknownAsset "fin") := by decide
  have hw : ((warm store [0]).runOn (after store (fetches ++ warms))).1 =
      .error .invalidDimensions := rfl
  refine ⟨store, fetches ++ warms, warms ++ fetches, _, .unknownAsset "fin", .invalidDimensions, hb,
    (images _ _ hb).2.1, (images _ _ hb).2.2, size.trans hc, hc, Prod.ext hf ?_, Prod.ext hw ?_, ?_,
    order _ List.perm_append_comm⟩
  · exact fetched .fin 1 _ _ (Prod.ext hf rfl)
  · exact warmed [0] _ _ (Prod.ext hw rfl)
  · intro he
    simp [fetches, warms] at he

/-! ## Transparency -/

/-- What a fetch or a painting gives after a history of requests is what it gives on an empty
    cache, and what the store gives without any cache. -/
theorem after_transparent (store : Store) (history : List Request) :
    (∀ (name : LayerName) (size : UInt32),
      ((fetch store name size).runOn (after store history)).1 =
        ((fetch store name size).runOn empty).1 ∧
      ((fetch store name size).runOn (after store history)).1 = store.scaled name size) ∧
    (∀ (attributes : Attributes) (background : Option Color) (size : UInt32),
      ((render store attributes background size).runOn (after store history)).1 =
        ((render store attributes background size).runOn empty).1 ∧
      ((render store attributes background size).runOn (after store history)).1 =
        store.picture attributes background size) := by
  have h := coherent_after store history
  have hempty := Coherent.empty store
  constructor
  · intro name size
    rw [h.runOn_fetch, hempty.runOn_fetch]
    exact ⟨rfl, rfl⟩
  · intro attributes background size
    rw [h.runOn_render, hempty.runOn_render]
    exact ⟨rfl, rfl⟩

end Cache

end Koi
