import Koi.Proofs.History
import Mathlib.Data.Finset.Prod

/-!
# Warming

Warming either refuses its sizes as a whole or scales every mask that is missing in one of them,
each once. Since a cache loses nothing, what has been warmed is never scaled again.

* `Cache.missing`, `Cache.length_absent_warmKeys`: how many masks are missing in some sizes.
* `Cache.scaleCount_fillAll`: filling scales what is absent.
* `Cache.Warmed`: all masks are there in some sizes; `Warmed.foldl_leave` says that this remains so,
  and `Warmed.runOn_fetch`, `Warmed.runOn_render` and `Warmed.runOn_warm` that nothing is scaled.
* `Cache.warm_after`: what warming does after every history, and what it spares afterwards.
-/

namespace Koi

namespace Cache

variable {store : Store} {cache : Cache}

/-! ## Counting what is missing -/

/-- The pairs of one of the sizes and a layer with a mask whose image is not in the cache. -/
def missing (store : Store) (cache : Cache) (sizes : List UInt32) : Finset (UInt32 × LayerName) :=
  (sizes.toFinset ×ˢ store.names.toFinset).filter fun pair =>
    cache.contains ⟨pair.1, pair.2⟩ = false

theorem length_eraseDups (sizes : List UInt32) :
    sizes.eraseDups.length = sizes.toFinset.card := by
  have hs : sizes.eraseDups.toFinset = sizes.toFinset := by
    ext size
    simp only [List.mem_toFinset, List.mem_eraseDups]
  rw [← hs, List.toFinset_card_of_nodup (nodup_eraseDups sizes)]

theorem length_absent_warmKeys (store : Store) (cache : Cache) (sizes : List UInt32) :
    (cache.absent (warmKeys store sizes.eraseDups)).length = (missing store cache sizes).card := by
  let pair (key : MaskKey) : UInt32 × LayerName := (key.size, key.name)
  have hinj : Function.Injective pair := by
    intro a b hab
    obtain ⟨hs, hn⟩ := Prod.mk.inj hab
    obtain ⟨sa, na⟩ := a
    obtain ⟨sb, nb⟩ := b
    exact congrArg₂ MaskKey.mk hs hn
  have hnodup : ((cache.absent (warmKeys store sizes.eraseDups)).map pair).Nodup :=
    ((nodup_warmKeys store (nodup_eraseDups sizes)).filter _).map hinj
  have hset : ((cache.absent (warmKeys store sizes.eraseDups)).map pair).toFinset =
      missing store cache sizes := by
    ext ⟨size, name⟩
    simp only [missing, absent, List.mem_toFinset, List.mem_map, List.mem_filter,
      mem_warmKeys_iff, List.mem_eraseDups, Finset.mem_filter, Finset.mem_product,
      store.mem_names_iff, Bool.not_eq_eq_eq_not, Bool.not_true]
    constructor
    · rintro ⟨key, ⟨⟨hs, hn⟩, hc⟩, hk⟩
      obtain ⟨rfl, rfl⟩ := Prod.mk.inj hk
      exact ⟨⟨hs, hn⟩, hc⟩
    · rintro ⟨⟨hs, hn⟩, hc⟩
      exact ⟨⟨size, name⟩, ⟨⟨hs, hn⟩, hc⟩, rfl⟩
  rw [← hset, List.toFinset_card_of_nodup hnodup, List.length_map]

/-! ## Counting what is scaled -/

theorem scaleCount_fill {key : MaskKey} (known : store.contains key.name = true) :
    (cache.fill store key).scaleCount = cache.scaleCount + (cache.absent [key]).length := by
  cases hc : cache.contains key with
  | true =>
    rw [fill_of_contains hc]
    simp [absent, hc]
  | false =>
    obtain ⟨image, hi⟩ := Option.isSome_iff_exists.1 ((store.isSome_scaled? key).trans known)
    rw [fill_of_some hc hi]
    simp [absent, hc, add]

/-- Filling in masks scales those that the cache does not hold yet. -/
theorem scaleCount_fillAll {keys : List MaskKey} (nodup : keys.Nodup)
    (known : ∀ key ∈ keys, store.contains key.name = true) (cache : Cache) :
    (cache.fillAll store keys).scaleCount = cache.scaleCount + (cache.absent keys).length := by
  induction keys generalizing cache with
  | nil => rfl
  | cons key rest ih =>
    obtain ⟨hk, hr⟩ := List.nodup_cons.1 nodup
    rw [fillAll_cons, ih hr fun other ho => known other (List.mem_cons_of_mem key ho),
      absent_fill hk, scaleCount_fill (known key List.mem_cons_self),
      length_absent_cons cache key rest, Nat.add_assoc]

theorem fillAll_of_contains {keys : List MaskKey}
    (h : ∀ key ∈ keys, store.contains key.name = true → cache.contains key = true) :
    cache.fillAll store keys = cache := by
  induction keys with
  | nil => rfl
  | cons key rest ih =>
    have hk : cache.fill store key = cache := by
      cases hn : store.contains key.name with
      | true => exact fill_of_contains (h key List.mem_cons_self hn)
      | false => exact fill_of_none (Store.scaled?_of_not_contains hn)
    rw [fillAll_cons, hk, ih fun other ho => h other (List.mem_cons_of_mem key ho)]

/-! ## What has been warmed -/

/-- All masks of the store are in the cache in each of the sizes. -/
def Warmed (store : Store) (sizes : List UInt32) (cache : Cache) : Prop :=
  ∀ size ∈ sizes, ∀ name, store.contains name = true → cache.contains ⟨size, name⟩ = true

namespace Warmed

variable {sizes : List UInt32}

theorem of_subset {fewer : List UInt32} (h : Warmed store sizes cache) (hs : fewer ⊆ sizes) :
    Warmed store fewer cache :=
  fun size hm => h size (hs hm)

theorem missing_eq_empty (h : Warmed store sizes cache) : missing store cache sizes = ∅ := by
  apply Finset.filter_eq_empty_iff.2
  rintro ⟨size, name⟩ hp
  simp only [Finset.mem_product, List.mem_toFinset, store.mem_names_iff] at hp
  rw [h size hp.1 name hp.2]
  decide

/-- Filling in masks in these sizes changes nothing. -/
theorem fillAll_eq_self (h : Warmed store sizes cache) {keys : List MaskKey}
    (hk : ∀ key ∈ keys, key.size ∈ sizes) : cache.fillAll store keys = cache :=
  fillAll_of_contains fun key hm hn => h key.size (hk key hm) key.name hn

/-- A request takes nothing away that was warmed. -/
theorem leave (h : Warmed store sizes cache) (hc : Coherent store cache) (request : Request) :
    Warmed store sizes (request.leave store cache) := by
  intro size hs name hn
  rw [Request.leave_eq_fillAll hc, contains_fillAll, h size hs name hn, Bool.true_or]

/-- What has been warmed stays so, whatever is asked for later. -/
theorem foldl_leave (h : Warmed store sizes cache) (hc : Coherent store cache)
    (later : List Request) : Warmed store sizes (later.foldl (Request.leave store) cache) := by
  induction later generalizing cache with
  | nil => exact h
  | cons request rest ih => exact ih (h.leave hc request) (Request.coherent_leave hc request)

theorem runOn_fetch (h : Warmed store sizes cache) (hc : Coherent store cache) {size : UInt32}
    (hs : size ∈ sizes) (name : LayerName) :
    (fetch store name size).runOn cache = (store.scaled name size, cache) := by
  have hf : cache.fillAll store [⟨size, name⟩] = cache := h.fillAll_eq_self (by simpa using hs)
  rw [hc.runOn_fetch, show cache.fill store ⟨size, name⟩ = cache from hf, ite_self]

theorem runOn_render (h : Warmed store sizes cache) (hc : Coherent store cache) {size : UInt32}
    (hs : size ∈ sizes) (attributes : Attributes) (background : Option Color) :
    (render store attributes background size).runOn cache =
      (store.picture attributes background size, cache) := by
  have hk : ∀ key ∈ renderKeys store attributes size, key.size ∈ sizes := by
    intro key hm
    unfold renderKeys at hm
    split at hm
    · obtain ⟨name, -, rfl⟩ := List.mem_map.1 hm
      exact hs
    · cases hm
  rw [hc.runOn_render, h.fillAll_eq_self hk]

theorem runOn_warm (h : Warmed store sizes cache) (valid : ValidSizes sizes) :
    (warm store sizes).runOn cache = (.ok ⟨sizes.toFinset.card, 0⟩, cache) := by
  have hk : ∀ key ∈ warmKeys store sizes.eraseDups, key.size ∈ sizes := by
    intro key hm
    exact List.mem_eraseDups.1 ((mem_warmKeys_iff store _ key).1 hm).1
  rw [Cache.runOn_warm, if_pos valid, length_absent_warmKeys, h.missing_eq_empty,
    h.fillAll_eq_self hk, length_eraseDups, Finset.card_empty]

end Warmed

/-! ## Warming a cache -/

theorem not_validSizes_iff (sizes : List UInt32) :
    ¬ ValidSizes sizes ↔ ∃ size ∈ sizes, size.toNat = 0 ∨ 4096 < size.toNat := by
  simp only [ValidSizes, ValidSize, maxEdge, not_forall, exists_prop]
  apply exists_congr
  intro size
  apply and_congr_right'
  omega

theorem runOn_warm_of_valid (store : Store) {sizes : List UInt32} (valid : ValidSizes sizes)
    (cache : Cache) :
    (warm store sizes).runOn cache =
      (.ok ⟨sizes.toFinset.card, (missing store cache sizes).card⟩,
        cache.fillAll store (warmKeys store sizes.eraseDups)) := by
  rw [runOn_warm, if_pos valid, length_eraseDups, length_absent_warmKeys]

theorem warmed_fillAll (store : Store) (cache : Cache) (sizes : List UInt32) :
    Warmed store sizes (cache.fillAll store (warmKeys store sizes.eraseDups)) := by
  intro size hs name hn
  have hm : MaskKey.mk size name ∈ warmKeys store sizes.eraseDups :=
    (mem_warmKeys_iff store _ _).2 ⟨List.mem_eraseDups.2 hs, hn⟩
  rw [contains_fillAll, decide_eq_true hm, hn, Bool.and_true, Bool.or_true]

theorem scaleCount_fillAll_warmKeys (store : Store) (cache : Cache) (sizes : List UInt32) :
    (cache.fillAll store (warmKeys store sizes.eraseDups)).scaleCount =
      cache.scaleCount + (missing store cache sizes).card := by
  have known : ∀ key ∈ warmKeys store sizes.eraseDups, store.contains key.name = true :=
    fun key hk => ((mem_warmKeys_iff store _ key).1 hk).2
  rw [scaleCount_fillAll (nodup_warmKeys store (nodup_eraseDups sizes)) known,
    length_absent_warmKeys]

/-- After every history of requests: warming is refused, and changes nothing, exactly if some size
    is out of bounds. Otherwise it scales, and counts, the masks that are missing in these sizes;
    all of them are in the cache afterwards, beside what was there before. Whatever is asked for
    later, the masks and pictures in these sizes need no scaling, and warming some of these sizes
    again finds nothing to scale. -/
theorem warm_after (store : Store) (history : List Request) (sizes : List UInt32) :
    ((warm store sizes).runOn (after store history) =
        (.error .invalidDimensions, after store history) ↔
      ∃ size ∈ sizes, size.toNat = 0 ∨ 4096 < size.toNat) ∧
    ((∀ size ∈ sizes, 1 ≤ size.toNat ∧ size.toNat ≤ 4096) → ∃ counts left,
      (warm store sizes).runOn (after store history) = (.ok counts, left) ∧
      counts.sizes = sizes.toFinset.card ∧
      counts.scaled = ((sizes.toFinset ×ˢ store.names.toFinset).filter fun pair =>
        (after store history).contains ⟨pair.1, pair.2⟩ = false).card ∧
      left.scaleCount = (after store history).scaleCount + counts.scaled ∧
      left.size = (after store history).size + counts.scaled ∧
      (∀ size ∈ sizes, ∀ name, store.contains name = true →
        left.contains ⟨size, name⟩ = true) ∧
      (∀ (key : MaskKey) (image : Image), (after store history).images[key]? = some image →
        left.images[key]? = some image) ∧
      ∀ (later : List Request) (now : Cache), now = later.foldl (Request.leave store) left →
        (∀ size ∈ sizes, ∀ name, store.contains name = true →
          ∃ image, (fetch store name size).runOn now = (.ok image, now)) ∧
        (∀ size ∈ sizes, ∀ attributes background,
          ((render store attributes background size).runOn now).2 = now) ∧
        (∀ fewer, fewer ⊆ sizes →
          (warm store fewer).runOn now = (.ok ⟨fewer.toFinset.card, 0⟩, now))) := by
  have hc := coherent_after store history
  constructor
  · rw [← not_validSizes_iff, runOn_warm]
    by_cases valid : ValidSizes sizes
    · simp [valid]
    · simp [valid]
  · intro (valid : ValidSizes sizes)
    have hw := runOn_warm_of_valid store valid (after store history)
    have hleft : Coherent store
        ((after store history).fillAll store (warmKeys store sizes.eraseDups)) := by
      apply hc.fillAll
      intro key hk
      exact valid _ (List.mem_eraseDups.1 ((mem_warmKeys_iff store _ key).1 hk).1)
    have hcount := scaleCount_fillAll_warmKeys store (after store history) sizes
    have hwarmed := warmed_fillAll store (after store history) sizes
    refine ⟨_, _, hw, rfl, rfl, hcount, ?_, hwarmed, ?_, ?_⟩
    · rw [hleft.size_eq, hcount, hc.size_eq]
    · intro key image hi
      rw [getElem?_fillAll, hi, Option.some_or]
    · rintro later now rfl
      have hnow := coherent_foldl_leave hleft later
      have hlater := hwarmed.foldl_leave hleft later
      refine ⟨?_, ?_, ?_⟩
      · intro size hs name hn
        obtain ⟨mask, hm, -⟩ := Store.get_of_contains hn
        refine ⟨mask.resize size.toNat, ?_⟩
        rw [hlater.runOn_fetch hnow hs, Store.scaled_of_valid (valid size hs), hm]
        rfl
      · intro size hs attributes background
        rw [hlater.runOn_render hnow hs]
      · intro fewer hf
        exact (hlater.of_subset hf).runOn_warm fun size hs => valid size (hf hs)

/-- A store with two masks, one of which has been fetched in one of two sizes: warming both scales
    the other three. -/
theorem warm_after_two_masks :
    ∃ (store : Store) (history later : List Request) (left now : Cache),
      (warm store [2, 0]).runOn (after store history) =
        (.error .invalidDimensions, after store history) ∧
      (warm store [2, 1, 2]).runOn (after store history) = (.ok ⟨2, 3⟩, left) ∧
      left.scaleCount = 4 ∧ left.size = 4 ∧
      now = later.foldl (Request.leave store) left ∧ now.scaleCount = 5 ∧
      (∃ image, (fetch store .fin 1).runOn now = (.ok image, now)) ∧
      (warm store [1]).runOn now = (.ok ⟨1, 0⟩, now) := by
  let mask := Image.pair (.rgba 0 0 0 255) .clear
  let store := (Store.empty.insert .body mask).insert .fin mask
  let history : List Request := [.fetch .body 2, .fetch .outline 1]
  let later : List Request := [.warm [0], .fetch .fin 3]
  obtain ⟨-, warmed⟩ := warm_after store history [2, 1, 2]
  obtain ⟨refused, -⟩ := warm_after store history [2, 0]
  have valid : ValidSizes [2, 1, 2] := by decide
  obtain ⟨counts, left, run, sizes, scaled, scaleCount, size, -, -, spared⟩ := warmed valid
  obtain ⟨fetched, -, again⟩ := spared later _ rfl
  have hs : counts.scaled = 3 := scaled.trans (by decide)
  have hcounts : counts = ⟨2, 3⟩ := by
    obtain ⟨_, _⟩ := counts
    exact congrArg₂ WarmCounts.mk (sizes.trans (by decide)) hs
  have hleft : left = ((warm store [2, 1, 2]).runOn (after store history)).2 := by rw [run]
  refine ⟨store, history, later, left, _, refused.2 (by decide), hcounts ▸ run, ?_, ?_, rfl, ?_,
    fetched 1 (by decide) .fin (by decide), again [1] (by decide)⟩
  · rw [scaleCount, hs]
    rfl
  · rw [size, hs]
    rfl
  · rw [hleft]
    rfl

end Cache

end Koi
