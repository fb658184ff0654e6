import Koi.Mask.Cache
import Mathlib.Data.List.Nodup

/-!
# What a cache holds

A cache only ever gains masks, each scaled from the store once. So a cache that came about by work
on one store is determined by the keys that it holds, and it does not matter whether a mask comes
from the cache or from the store.

* `CacheM.runOn`: the result of work on a cache, and the cache that it leaves.
* `Cache.fill`, `Cache.fillAll`: a cache with the masks of more keys; `getElem?_fillAll` says what
  it holds.
* `Cache.Coherent`: the invariant, with `Coherent.fillAll` and `Coherent.eq_of_contains`.
* `Coherent.runOn_fetch`, `Cache.runOn_warm`: what the operations do.
-/

namespace Koi

/-! ## Running work -/

section

variable {ε σ α β : Type} {work : ExceptT ε (StateM σ) α} {state left : σ}

/-- Work on a state goes on after a first part that succeeds. -/
theorem run_bind_ok {a : α} (h : work.run.run state = (.ok a, left))
    (next : α → ExceptT ε (StateM σ) β) :
    (work >>= next).run.run state = (next a).run.run left := by
  rw [ExceptT.run_bind, StateT.run_bind, h]
  rfl

/-- Work on a state ends with a first part that fails. -/
theorem run_bind_error {e : ε} (h : work.run.run state = (.error e, left))
    (next : α → ExceptT ε (StateM σ) β) :
    (work >>= next).run.run state = (.error e, left) := by
  rw [ExceptT.run_bind, StateT.run_bind, h]
  rfl

end

namespace CacheM

variable {α β : Type}

/-- The result of work on a cache, and the cache that it leaves. -/
def runOn (work : CacheM α) (cache : Cache) : Except Error α × Cache :=
  work.run.run cache

@[simp] theorem runOn_pure (a : α) (cache : Cache) :
    CacheM.runOn (pure a) cache = (.ok a, cache) :=
  rfl

@[simp] theorem runOn_liftM (result : Except Error α) (cache : Cache) :
    CacheM.runOn (liftM result) cache = (result, cache) :=
  rfl

theorem runOn_discard (result : Except Error α) (cache : Cache) :
    CacheM.runOn (discard (liftM result)) cache = (result.map fun _ => ⟨⟩, cache) := by
  cases result <;> rfl

@[simp] theorem runOn_get (cache : Cache) : CacheM.runOn get cache = (.ok cache, cache) :=
  rfl

theorem runOn_bind (work : CacheM α) (next : α → CacheM β) (cache : Cache) :
    CacheM.runOn (work >>= next) cache =
      match work.runOn cache with
      | (.ok a, cache) => (next a).runOn cache
      | (.error e, cache) => (.error e, cache) := by
  simp only [runOn, ExceptT.run_bind, StateT.run_bind]
  rcases (work.run.run cache) with ⟨_ | _, _⟩ <;> rfl

/-- Work goes on after a first part that succeeds. -/
theorem runOn_bind_ok {work : CacheM α} {cache left : Cache} {a : α}
    (h : work.runOn cache = (.ok a, left)) (next : α → CacheM β) :
    CacheM.runOn (work >>= next) cache = (next a).runOn left :=
  run_bind_ok h next

/-- Work ends with a first part that fails. -/
theorem runOn_bind_error {work : CacheM α} {cache left : Cache} {e : Error}
    (h : work.runOn cache = (.error e, left)) (next : α → CacheM β) :
    CacheM.runOn (work >>= next) cache = (.error e, left) :=
  run_bind_error h next

theorem runOn_map (f : α → β) (work : CacheM α) (cache : Cache) :
    CacheM.runOn (do return f (← work)) cache =
      ((work.runOn cache).1.map f, (work.runOn cache).2) := by
  rw [runOn_bind]
  rcases work.runOn cache with ⟨_ | _, _⟩ <;> rfl

end CacheM

/-! ## Masks straight from the store -/

theorem checkSize_of_valid {size : UInt32} (h : ValidSize size) : checkSize size = .ok size :=
  if_pos h

theorem checkSize_of_not_valid {size : UInt32} (h : ¬ ValidSize size) :
    checkSize size = .error .invalidDimensions :=
  if_neg h

/-- Whether images may have all of these edges. -/
def ValidSizes (sizes : List UInt32) : Prop := ∀ size ∈ sizes, ValidSize size

instance (sizes : List UInt32) : Decidable (ValidSizes sizes) :=
  List.decidableBAll ValidSize sizes

theorem validSizes_cons {size : UInt32} {rest : List UInt32} :
    ValidSizes (size :: rest) ↔ ValidSize size ∧ ValidSizes rest :=
  List.forall_mem_cons

namespace Store

/-- The scaled mask of a key, if the store has its layer. -/
def scaled? (store : Store) (key : MaskKey) : Option Image :=
  (store.get? key.name).map fun mask => mask.resize key.size.toNat

/-- A layer's mask in a size, without any cache. The size is checked first. -/
def scaled (store : Store) (name : LayerName) (size : UInt32) : Except Error Image := do
  let size ← checkSize size
  return (← store.get name).resize size.toNat

theorem isSome_scaled? (store : Store) (key : MaskKey) :
    (store.scaled? key).isSome = store.contains key.name := by
  rw [scaled?, Option.isSome_map, contains_eq_isSome]

theorem scaled?_of_not_contains {store : Store} {key : MaskKey}
    (h : store.contains key.name = false) : store.scaled? key = none := by
  rwa [← Option.isNone_iff_eq_none, ← Option.isSome_eq_false_iff, isSome_scaled?]

theorem scaled_of_not_valid (store : Store) (name : LayerName) {size : UInt32}
    (h : ¬ ValidSize size) : store.scaled name size = .error .invalidDimensions := by
  rw [scaled, checkSize_of_not_valid h]
  rfl

theorem scaled_of_valid {store : Store} {name : LayerName} {size : UInt32}
    (valid : ValidSize size) :
    store.scaled name size = (store.get name).map fun mask => mask.resize size.toNat := by
  rw [scaled, checkSize_of_valid valid]
  cases store.get name <;> rfl

theorem scaled_of_some {store : Store} {name : LayerName} {size : UInt32} {image : Image}
    (valid : ValidSize size) (h : store.scaled? ⟨size, name⟩ = some image) :
    store.scaled name size = .ok image := by
  obtain ⟨mask, hm, rfl⟩ := Option.map_eq_some_iff.1 h
  rw [scaled_of_valid valid, (store.get_eq_ok_iff name mask).2 hm]
  rfl

theorem get_of_contains {store : Store} {name : LayerName} (h : store.contains name = true) :
    ∃ mask, store.get name = .ok mask ∧ store.get? name = some mask := by
  rw [contains_eq_isSome] at h
  obtain ⟨mask, hm⟩ := Option.isSome_iff_exists.1 h
  exact ⟨mask, (store.get_eq_ok_iff name mask).2 hm, hm⟩

theorem get_of_not_contains {store : Store} {name : LayerName} (h : store.contains name = false) :
    store.get name = .error (.unknownAsset name.render) := by
  rw [contains_eq_isSome, Option.isSome_eq_false_iff, Option.isNone_iff_eq_none] at h
  rw [get, h]

end Store

namespace Cache

/-! ## Filling -/

/-- The cache with the mask of a key, if the store has one. What the cache holds is kept. -/
def fill (store : Store) (cache : Cache) (key : MaskKey) : Cache :=
  if cache.contains key then cache
  else
    match store.scaled? key with
    | some image => cache.add key image
    | none => cache

/-- The cache with the masks of several keys. -/
def fillAll (store : Store) (cache : Cache) (keys : List MaskKey) : Cache :=
  keys.foldl (fill store) cache

variable {store : Store} {cache : Cache}

theorem contains_eq_isSome (cache : Cache) (key : MaskKey) :
    cache.contains key = cache.images[key]?.isSome := by
  simp [contains]

theorem fill_of_contains {key : MaskKey} (h : cache.contains key = true) :
    cache.fill store key = cache :=
  if_pos h

theorem fill_of_some {key : MaskKey} {image : Image} (h : cache.contains key = false)
    (hi : store.scaled? key = some image) : cache.fill store key = cache.add key image := by
  rw [fill, if_neg (by simp [h]), hi]

theorem fill_of_none {key : MaskKey} (h : store.scaled? key = none) :
    cache.fill store key = cache := by
  rw [fill, h, ite_self]

theorem getElem?_fill (store : Store) (cache : Cache) (key other : MaskKey) :
    (cache.fill store key).images[other]? =
      cache.images[other]?.or (if key = other then store.scaled? other else none) := by
  by_cases hk : key = other
  · subst hk
    rw [if_pos rfl]
    cases hc : cache.images[key]? with
    | some image => rw [fill_of_contains (by simp [contains_eq_isSome, hc]), hc, Option.some_or]
    | none =>
      cases hs : store.scaled? key with
      | some image =>
        rw [fill_of_some (by simp [contains_eq_isSome, hc]) hs, getElem?_add, if_pos rfl]
        rfl
      | none => rw [fill_of_none hs, hc]; rfl
  · rw [if_neg hk, Option.or_none]
    unfold fill
    split
    · rfl
    · split
      · rw [getElem?_add, if_neg hk]
      · rfl

theorem fillAll_cons (store : Store) (cache : Cache) (key : MaskKey) (rest : List MaskKey) :
    cache.fillAll store (key :: rest) = (cache.fill store key).fillAll store rest :=
  rfl

/-- A filled cache holds what it held and the masks of the new keys. -/
theorem getElem?_fillAll (store : Store) (cache : Cache) (keys : List MaskKey) (other : MaskKey) :
    (cache.fillAll store keys).images[other]? =
      cache.images[other]?.or (if other ∈ keys then store.scaled? other else none) := by
  induction keys generalizing cache with
  | nil => simp [fillAll]
  | cons key rest ih =>
    rw [fillAll_cons, ih, getElem?_fill, Option.or_assoc]
    congr 1
    by_cases hk : key = other
    · subst hk
      rw [if_pos rfl, if_pos List.mem_cons_self]
      cases store.scaled? key <;> simp
    · have hm : other ∈ key :: rest ↔ other ∈ rest := by simp [Ne.symm hk]
      simp [hk, hm]

theorem contains_fillAll (store : Store) (cache : Cache) (keys : List MaskKey) (other : MaskKey) :
    (cache.fillAll store keys).contains other =
      (cache.contains other || decide (other ∈ keys) && store.contains other.name) := by
  rw [contains_eq_isSome, getElem?_fillAll, Option.isSome_or, ← contains_eq_isSome,
    ← store.isSome_scaled? other]
  by_cases h : other ∈ keys <;> simp [h]

theorem fillAll_append (store : Store) (cache : Cache) (keys more : List MaskKey) :
    cache.fillAll store (keys ++ more) = (cache.fillAll store keys).fillAll store more :=
  List.foldl_append

/-! ## Coherence -/

/-- Every image is the store's mask of its layer in a size that images may have, and each scaled
    mask is still there. -/
structure Coherent (store : Store) (cache : Cache) : Prop where
  validSize : ∀ {key : MaskKey} {image : Image}, cache.images[key]? = some image →
    ValidSize key.size
  image_eq : ∀ {key : MaskKey} {image : Image}, cache.images[key]? = some image →
    store.scaled? key = some image
  size_eq : cache.size = cache.scaleCount

namespace Coherent

theorem empty (store : Store) : Coherent store Cache.empty where
  validSize := by simp [Cache.empty]
  image_eq := by simp [Cache.empty]
  size_eq := by simp [Cache.size, Cache.empty]

theorem getElem?_eq (h : Coherent store cache) (key : MaskKey) :
    cache.images[key]? = if cache.contains key then store.scaled? key else none := by
  rw [contains_eq_isSome]
  cases hc : cache.images[key]? with
  | some image => exact (h.image_eq hc).symm
  | none => rfl

/-- Coherent caches over one store differ in their keys only. -/
theorem eq_of_contains {other : Cache} (h : Coherent store cache) (ho : Coherent store other)
    (keys : ∀ key, cache.contains key = other.contains key) : cache = other := by
  have hi : cache.images = other.images := by
    apply Std.ExtTreeMap.ext_getElem?
    intro key
    rw [h.getElem?_eq, ho.getElem?_eq, keys]
  have hn : cache.scaleCount = other.scaleCount := by
    rw [← h.size_eq, ← ho.size_eq, size, size, hi]
  obtain ⟨images, scaleCount⟩ := cache
  obtain ⟨images', scaleCount'⟩ := other
  simp only at hi hn
  rw [hi, hn]

theorem add {key : MaskKey} {image : Image} (h : Coherent store cache)
    (valid : ValidSize key.size) (hc : cache.contains key = false)
    (hi : store.scaled? key = some image) : Coherent store (cache.add key image) := by
  constructor
  · intro other image' ho
    rw [getElem?_add] at ho
    split at ho
    · next hk => exact hk ▸ valid
    · exact h.validSize ho
  · intro other image' ho
    rw [getElem?_add] at ho
    split at ho
    · next hk => rw [← hk, hi, ← Option.some.inj ho]
    · exact h.image_eq ho
  · have hs := h.size_eq
    simp only [Cache.size, Cache.contains] at hs hc
    simp [Cache.size, Cache.add, Std.ExtTreeMap.size_insert, hc, hs]

theorem fill {key : MaskKey} (h : Coherent store cache) (valid : ValidSize key.size) :
    Coherent store (cache.fill store key) := by
  cases hc : cache.contains key with
  | true => rwa [fill_of_contains hc]
  | false =>
    cases hs : store.scaled? key with
    | some image =>
      rw [fill_of_some hc hs]
      exact h.add valid hc hs
    | none => rwa [fill_of_none hs]

theorem fillAll {keys : List MaskKey} (h : Coherent store cache)
    (valid : ∀ key ∈ keys, ValidSize key.size) : Coherent store (cache.fillAll store keys) := by
  induction keys generalizing cache with
  | nil => exact h
  | cons key rest ih =>
    exact ih (h.fill (valid key List.mem_cons_self))
      fun other ho => valid other (List.mem_cons_of_mem key ho)

/-- A mask comes out as the store has it, and is in the cache afterwards. -/
theorem runOn_fetch (h : Coherent store cache) (name : LayerName) (size : UInt32) :
    (fetch store name size).runOn cache = (store.scaled name size,
      if ValidSize size then cache.fill store ⟨size, name⟩ else cache) := by
  unfold fetch
  by_cases valid : ValidSize size
  · rw [checkSize_of_valid valid, if_pos valid, CacheM.runOn_bind_ok (CacheM.runOn_liftM _ _),
      CacheM.runOn_bind_ok (CacheM.runOn_get _)]
    cases hc : cache.images[MaskKey.mk size name]? with
    | some image =>
      rw [Store.scaled_of_some valid (h.image_eq hc),
        fill_of_contains (by simp [contains_eq_isSome, hc])]
      rfl
    | none =>
      have hc : cache.contains ⟨size, name⟩ = false := by simp [contains_eq_isSome, hc]
      rw [Store.scaled_of_valid valid, Store.get]
      cases hm : store.get? name with
      | some mask =>
        rw [fill_of_some hc (by rw [Store.scaled?, hm, Option.map_some])]
        rfl
      | none =>
        rw [fill_of_none (by rw [Store.scaled?, hm, Option.map_none])]
        rfl
  · rw [checkSize_of_not_valid valid, if_neg valid, Store.scaled_of_not_valid store name valid]
    rfl

end Coherent

/-! ## Warming -/

theorem mem_warmKeys_iff (store : Store) (sizes : List UInt32) (key : MaskKey) :
    key ∈ warmKeys store sizes ↔ key.size ∈ sizes ∧ store.contains key.name = true := by
  simp only [warmKeys, List.mem_flatMap, List.mem_map, store.mem_names_iff]
  constructor
  · rintro ⟨size, hs, name, hn, rfl⟩
    exact ⟨hs, hn⟩
  · rintro ⟨hs, hn⟩
    exact ⟨key.size, hs, key.name, hn, rfl⟩

theorem nodup_eraseDups (sizes : List UInt32) : sizes.eraseDups.Nodup := by
  induction h : sizes.length using Nat.strongRecOn generalizing sizes with
  | ind n ih =>
    cases sizes with
    | nil => exact List.nodup_nil
    | cons size rest =>
      rw [List.eraseDups_cons, List.nodup_cons]
      refine ⟨by simp [List.mem_eraseDups], ih _ ?_ _ rfl⟩
      have := List.length_filter_le (fun other => !other == size) rest
      simp only [List.length_cons] at h
      omega

theorem nodup_warmKeys (store : Store) {sizes : List UInt32} (h : sizes.Nodup) :
    (warmKeys store sizes).Nodup := by
  unfold warmKeys
  apply List.nodup_flatMap.2
  constructor
  · intro size _
    exact store.masks.nodup_keys.map fun a b hab => congrArg MaskKey.name hab
  · apply h.imp
    intro a b hab key ha hb
    obtain ⟨_, -, rfl⟩ := List.mem_map.1 ha
    obtain ⟨_, -, hk⟩ := List.mem_map.1 hb
    exact hab (congrArg MaskKey.size hk).symm

/-- The keys that a cache does not hold yet. -/
def absent (cache : Cache) (keys : List MaskKey) : List MaskKey :=
  keys.filter fun key => !cache.contains key

theorem length_absent_cons (cache : Cache) (key : MaskKey) (rest : List MaskKey) :
    (cache.absent (key :: rest)).length =
      (cache.absent [key]).length + (cache.absent rest).length := by
  rw [← List.length_append, absent, absent, absent, ← List.filter_append]
  rfl

theorem runOn_warmKey {key : MaskKey} (known : store.contains key.name = true) (cache : Cache)
    (scaled : Nat) : (warmKey store key scaled).runOn cache =
      (.ok (scaled + (cache.absent [key]).length), cache.fill store key) := by
  unfold warmKey
  rw [CacheM.runOn_bind_ok (CacheM.runOn_get _)]
  cases hc : cache.contains key with
  | true =>
    rw [fill_of_contains hc]
    simp [absent, hc]
  | false =>
    obtain ⟨mask, hg, hm⟩ := Store.get_of_contains known
    have hl : absent cache [key] = [key] := by simp [absent, hc]
    rw [fill_of_some hc (by rw [Store.scaled?, hm, Option.map_some]), hl, hg]
    rfl

theorem absent_fill {key : MaskKey} {keys : List MaskKey} (h : key ∉ keys) :
    (cache.fill store key).absent keys = cache.absent keys := by
  apply List.filter_congr
  intro other ho
  have hne : key ≠ other := fun e => h (e ▸ ho)
  rw [contains_eq_isSome, getElem?_fill, if_neg hne, Option.or_none, ← contains_eq_isSome]

theorem runOn_foldlM_warmKey {keys : List MaskKey} (nodup : keys.Nodup)
    (known : ∀ key ∈ keys, store.contains key.name = true) (cache : Cache) (scaled : Nat) :
    CacheM.runOn (keys.foldlM (fun scaled key => warmKey store key scaled) scaled) cache =
      (.ok (scaled + (cache.absent keys).length), cache.fillAll store keys) := by
  induction keys generalizing cache scaled with
  | nil => rfl
  | cons key rest ih =>
    obtain ⟨hk, hr⟩ := List.nodup_cons.1 nodup
    rw [List.foldlM_cons, CacheM.runOn_bind_ok
      (runOn_warmKey (known key List.mem_cons_self) cache scaled),
      ih hr fun other ho => known other (List.mem_cons_of_mem key ho), absent_fill hk]
    rw [length_absent_cons cache key rest, Nat.add_assoc]
    rfl

theorem runOn_checkSizes (sizes : List UInt32) (cache : Cache) :
    CacheM.runOn (sizes.forM fun size => discard (liftM (checkSize size))) cache =
      (if ValidSizes sizes then .ok ⟨⟩ else .error .invalidDimensions, cache) := by
  induction sizes with
  | nil => rfl
  | cons size rest ih =>
    rw [List.forM_eq_forM, List.forM_cons, ← List.forM_eq_forM]
    have hd := CacheM.runOn_discard (checkSize size) cache
    by_cases valid : ValidSize size
    · rw [checkSize_of_valid valid] at hd ⊢
      rw [CacheM.runOn_bind_ok hd, ih]
      simp [validSizes_cons, valid]
    · rw [checkSize_of_not_valid valid] at hd ⊢
      rw [CacheM.runOn_bind_error hd]
      simp [validSizes_cons, valid]

/-- Warming scales what is missing, or nothing at all if some size is out of bounds. -/
theorem runOn_warm (store : Store) (sizes : List UInt32) (cache : Cache) :
    (warm store sizes).runOn cache =
      if ValidSizes sizes then
        (.ok ⟨sizes.eraseDups.length, (cache.absent (warmKeys store sizes.eraseDups)).length⟩,
          cache.fillAll store (warmKeys store sizes.eraseDups))
      else (.error .invalidDimensions, cache) := by
  unfold warm
  by_cases valid : ValidSizes sizes
  · have hc := runOn_checkSizes sizes cache
    rw [if_pos valid] at hc
    have hw := runOn_foldlM_warmKey (nodup_warmKeys store (nodup_eraseDups sizes))
      (fun key hk => ((mem_warmKeys_iff store _ key).1 hk).2) cache 0
    rw [Nat.zero_add] at hw
    rw [if_pos valid, CacheM.runOn_bind_ok hc, CacheM.runOn_bind_ok hw]
    rfl
  · have hc := runOn_checkSizes sizes cache
    rw [if_neg valid] at hc
    rw [if_neg valid, CacheM.runOn_bind_error hc]

end Cache

end Koi
