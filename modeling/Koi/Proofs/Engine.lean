import Koi.Engine
import Koi.Proofs.Catalog
import Koi.Proofs.Generation.Checked
import Koi.Proofs.Generation.Separation
import Koi.Proofs.History

/-!
# Engines

An engine exists for a store that covers the catalogue, and every koi that a token can bring forth
is made of layers of the catalogue. So one check at the start stands for all later requests: only
the token and the size can be refused.

* `Attributes.mem_names_of_ofStreams`: the layers of generated koi belong to the catalogue.
* `Engine.Reachable`: the caches of an engine; they are coherent.
* `TokenOutcome`: what a picture of a token comes to.
* `Engine.ofStore_picture`: engines exist exactly for covered catalogues, and their pictures and
  thumbnails come to this.
-/

namespace Koi

/-! ## The layers of generated koi -/

theorem mem_of_mem_drawFrom {pool : List Layer} {nonempty : 0 < pool.length} {count : Nat}
    {g : Xorshift} {layer : Layer} (h : layer ∈ drawFrom pool nonempty count g) :
    layer ∈ pool := by
  induction count generalizing g with
  | zero => cases h
  | succ n ih =>
    rcases List.mem_cons.1 h with rfl | h
    · exact List.getElem_mem _
    · exact ih h

theorem mem_of_mem_pickLayers {pool : List Layer} {count : Nat} {seed : UInt64} {layer : Layer}
    (h : layer ∈ pickLayers pool count seed) : layer ∈ pool := by
  unfold pickLayers at h
  split at h
  · exact mem_of_mem_drawFrom h
  · cases h

namespace Attributes

theorem mem_candidates_of_ofStreams {streams : Quarters Xorshift} {region : Region}
    {layer : Layer} (h : layer ∈ (ofStreams streams).layersOf region) :
    layer ∈ (Palette.draw streams.variety).candidates region := by
  rw [layersOf_ofStreams] at h
  exact mem_of_mem_pickLayers h

/-- All layers of a generated koi belong to the catalogue, whatever the streams are. -/
theorem mem_names_of_ofStreams {streams : Quarters Xorshift} {name : LayerName}
    (h : name ∈ (ofStreams streams).layerNames) : name ∈ Catalog.names := by
  rw [Catalog.mem_names_iff]
  simp only [layerNames, paintedLayers, patterns, List.map_cons, List.cons_append, List.mem_cons,
    List.mem_append, List.mem_map, List.mem_flatMap, List.not_mem_nil, or_false] at h
  rcases h with rfl | rfl | ⟨layer, ⟨region, -, hl⟩, rfl⟩ | rfl
  · exact .inl (by decide)
  · exact .inl (by decide)
  · exact .inr ⟨_, region, layer, mem_candidates_of_ofStreams hl, rfl⟩
  · exact .inl (by decide)

theorem mem_names_of_generate {token : String} {attributes : Attributes}
    (h : generate token = .ok attributes) {name : LayerName} (hn : name ∈ attributes.layerNames) :
    name ∈ Catalog.names := by
  rw [generate] at h
  cases hp : TokenId.parse token with
  | error e =>
    rw [hp] at h
    cases h
  | ok id =>
    rw [hp] at h
    obtain rfl := Except.ok.inj h
    exact mem_names_of_ofStreams hn

end Attributes

theorem TokenId.invalidToken_of_parse {text : String} {e : Error}
    (h : TokenId.parse text = .error e) : ∃ reason, e = .invalidToken reason := by
  unfold parse at h
  split at h
  · exact ⟨_, (Except.error.inj h).symm⟩
  · split at h
    · split at h
      · cases h
      · exact ⟨_, (Except.error.inj h).symm⟩
    · exact ⟨_, (Except.error.inj h).symm⟩

/-- What a picture of a token comes to: an unreadable token is refused whatever the size is, then a
    size that images may not have; nothing else can go wrong. -/
structure TokenOutcome (token : String) (size : UInt32) (result : Except Error Image) : Prop where
  isOk_iff : (∃ image, result = .ok image) ↔
    (∃ id, TokenId.parse token = .ok id) ∧ 1 ≤ size.toNat ∧ size.toNat ≤ 4096
  square : ∀ image, result = .ok image → image.width = size.toNat ∧ image.height = size.toNat
  unreadable : ∀ e, TokenId.parse token = .error e →
    result = .error e ∧ ∃ reason, e = .invalidToken reason
  outOfBounds : ∀ id, TokenId.parse token = .ok id → ¬ (1 ≤ size.toNat ∧ size.toNat ≤ 4096) →
    result = .error .invalidDimensions

namespace TokenOutcome

variable {token : String} {size : UInt32} {id : TokenId}

theorem of_parse_error {e : Error} (h : TokenId.parse token = .error e) :
    TokenOutcome token size (.error e) where
  isOk_iff := by simp [h]
  square := by simp
  unreadable := by
    intro e' he
    obtain rfl := Except.error.inj (h.symm.trans he)
    exact ⟨rfl, TokenId.invalidToken_of_parse h⟩
  outOfBounds := by simp [h]

theorem of_image (h : TokenId.parse token = .ok id) (valid : ValidSize size) {image : Image}
    (width : image.width = size.toNat) (height : image.height = size.toNat) :
    TokenOutcome token size (.ok image) where
  isOk_iff := ⟨fun _ => ⟨⟨id, h⟩, valid⟩, fun _ => ⟨image, rfl⟩⟩
  square := by
    intro image' hi
    obtain rfl := Except.ok.inj hi
    exact ⟨width, height⟩
  unreadable := by simp [h]
  outOfBounds := fun _ _ hn => absurd valid hn

theorem of_not_valid (h : TokenId.parse token = .ok id) (valid : ¬ ValidSize size) :
    TokenOutcome token size (.error .invalidDimensions) where
  isOk_iff := by
    constructor
    · rintro ⟨image, hi⟩
      cases hi
    · rintro ⟨-, hv⟩
      exact absurd hv valid
  square := by simp
  unreadable := by simp [h]
  outOfBounds := fun _ _ _ => rfl

end TokenOutcome

namespace Engine

/-! ## The caches of an engine -/

/-- A cache that comes about by requests to it and by pictures and thumbnails of tokens, in any
    order and whether they succeed or not. -/
inductive Reachable (engine : Engine) : Cache → Prop where
  | empty : Reachable engine Cache.empty
  | request {cache : Cache} (request : Request) : Reachable engine cache →
    Reachable engine (request.leave engine.store cache)
  | picture {cache : Cache} (token : String) (size : UInt32) : Reachable engine cache →
    Reachable engine ((engine.picture token size).runOn cache).2
  | thumbnail {cache : Cache} (token : String) (size : UInt32) : Reachable engine cache →
    Reachable engine ((engine.thumbnail token size).runOn cache).2

/-- A koi of a token, painted over what its attributes ask for. -/
def paintToken (engine : Engine) (background : Attributes → Option Color) (token : String)
    (size : UInt32) : CacheM Image := do
  let attributes ← Attributes.generate token
  render engine.store attributes (background attributes) size

theorem picture_eq_paintToken (engine : Engine) (token : String) (size : UInt32) :
    engine.picture token size = engine.paintToken (fun _ => none) token size :=
  rfl

theorem thumbnail_eq_paintToken (engine : Engine) (token : String) (size : UInt32) :
    engine.thumbnail token size =
      engine.paintToken (fun attributes => some attributes.primaryColor) token size :=
  rfl

variable {engine : Engine} {cache : Cache}

theorem runOn_paintToken_of_ok {token : String} {id : TokenId}
    (h : TokenId.parse token = .ok id) (background : Attributes → Option Color) (size : UInt32)
    (cache : Cache) : (engine.paintToken background token size).runOn cache =
      (render engine.store (Attributes.ofToken id) (background (Attributes.ofToken id)) size).runOn
        cache := by
  rw [paintToken, Attributes.generate, h]
  exact CacheM.runOn_bind_ok (CacheM.runOn_liftM _ _) _

theorem runOn_paintToken_of_error {token : String} {e : Error}
    (h : TokenId.parse token = .error e) (background : Attributes → Option Color) (size : UInt32)
    (cache : Cache) :
    (engine.paintToken background token size).runOn cache = (.error e, cache) := by
  rw [paintToken, Attributes.generate, h]
  exact CacheM.runOn_bind_error (CacheM.runOn_liftM _ _) _

theorem coherent_paintToken (h : Cache.Coherent engine.store cache)
    (background : Attributes → Option Color) (token : String) (size : UInt32) :
    Cache.Coherent engine.store ((engine.paintToken background token size).runOn cache).2 := by
  cases hp : TokenId.parse token with
  | ok id =>
    rw [runOn_paintToken_of_ok hp, h.runOn_render]
    apply h.fillAll
    intro key (hk : key ∈ (Request.render (Attributes.ofToken id) none size).keys engine.store)
    exact Request.validSize_of_mem_keys hk
  | error e => rwa [runOn_paintToken_of_error hp]

theorem Reachable.coherent (h : engine.Reachable cache) : Cache.Coherent engine.store cache := by
  induction h with
  | empty => exact Cache.Coherent.empty engine.store
  | request request _ ih => exact Request.coherent_leave ih request
  | picture token size _ ih =>
    rw [picture_eq_paintToken]
    exact coherent_paintToken ih _ token size
  | thumbnail token size _ ih =>
    rw [thumbnail_eq_paintToken]
    exact coherent_paintToken ih _ token size

/-! ## Pictures of tokens -/

theorem contains_of_ofToken (engine : Engine) (id : TokenId) :
    ∀ name ∈ (Attributes.ofToken id).layerNames, engine.store.contains name = true :=
  fun name hn => engine.complete name (Attributes.mem_names_of_ofStreams hn)

theorem tokenOutcome_paintToken (h : Cache.Coherent engine.store cache)
    (background : Attributes → Option Color) (token : String) (size : UInt32) :
    TokenOutcome token size ((engine.paintToken background token size).runOn cache).1 := by
  cases hp : TokenId.parse token with
  | error e =>
    rw [runOn_paintToken_of_error hp]
    exact .of_parse_error hp
  | ok id =>
    rw [runOn_paintToken_of_ok hp, h.runOn_render]
    by_cases valid : ValidSize size
    · obtain ⟨image, hi, hw, hh⟩ := Store.picture_eq_ok valid (engine.contains_of_ofToken id)
        (background (Attributes.ofToken id))
      rw [hi]
      exact .of_image hp valid hw hh
    · rw [Store.picture_of_not_valid engine.store _ _ valid]
      exact .of_not_valid hp valid

/-! ## From the check to the pictures -/

theorem ofStore_of_complete (config : Config) {store : Store} (h : store.Complete) :
    ofStore config store = .ok ⟨config, store, h⟩ := by
  have hv := (store.verify_eq_ok_iff).2 h
  unfold ofStore
  split
  · rfl
  · next e he => cases hv.symm.trans he

theorem ofStore_of_verify_error (config : Config) {store : Store} {e : Error}
    (h : store.verify = .error e) : ofStore config store = .error e := by
  unfold ofStore
  split
  · next hv => cases h.symm.trans hv
  · next e' he => rw [Except.error.inj (h.symm.trans he)]

theorem ofStore_eq_error_iff (config : Config) (store : Store) (e : Error) :
    ofStore config store = .error e ↔ store.verify = .error e := by
  constructor
  · intro h
    cases hv : store.verify with
    | ok =>
      rw [ofStore_of_complete config ((store.verify_eq_ok_iff).1 hv)] at h
      cases h
    | error e' =>
      rw [ofStore_of_verify_error config hv] at h
      rw [Except.error.inj h]
  · exact ofStore_of_verify_error config

theorem ofStore_eq_ok_iff (config : Config) (store : Store) (engine : Engine) :
    ofStore config store = .ok engine ↔ engine.config = config ∧ engine.store = store := by
  constructor
  · intro h
    cases hv : store.verify with
    | ok =>
      rw [ofStore_of_complete config ((store.verify_eq_ok_iff).1 hv)] at h
      obtain rfl := Except.ok.inj h
      exact ⟨rfl, rfl⟩
    | error e =>
      rw [ofStore_of_verify_error config hv] at h
      cases h
  · rintro ⟨rfl, rfl⟩
    exact ofStore_of_complete engine.config engine.complete

/-- An engine exists exactly if every layer of the catalogue has a mask; otherwise the first layer
    without one is named. Whatever an engine has done before, a picture or thumbnail of a token is
    refused for the token or the size only. All layers of the koi of a token belong to the
    catalogue, and no draw on the way from the token is below zero or leads outside of a pool. -/
theorem ofStore_picture (config : Config) (store : Store) :
    ((∃ engine, ofStore config store = .ok engine) ↔
      ∀ name ∈ Catalog.names, store.contains name = true) ∧
    (∀ e, ofStore config store = .error e ↔
      ∃ name, store.FirstMissing name ∧ e = .unknownAsset name.render) ∧
    (∀ engine, ofStore config store = .ok engine → engine.config = config ∧ engine.store = store ∧
      ∀ cache, engine.Reachable cache → ∀ token size,
        TokenOutcome token size ((engine.picture token size).runOn cache).1 ∧
        TokenOutcome token size ((engine.thumbnail token size).runOn cache).1) ∧
    (∀ token attributes, Attributes.generate token = .ok attributes →
      ∀ name ∈ attributes.layerNames, name ∈ Catalog.names) ∧
    (∀ token, Checked.generate token =
      match TokenId.parse token with
      | .ok id => .ok (Attributes.ofToken id)
      | .error e => .error (.failure e)) := by
  refine ⟨⟨?_, ?_⟩, ?_, ?_, ?_, ?_⟩
  · rintro ⟨engine, h⟩
    obtain ⟨-, rfl⟩ := (ofStore_eq_ok_iff config store engine).1 h
    exact engine.complete
  · intro h
    exact ⟨_, ofStore_of_complete config h⟩
  · intro e
    rw [ofStore_eq_error_iff, Store.verify_eq_error_iff]
  · intro engine h
    obtain ⟨hc, hs⟩ := (ofStore_eq_ok_iff config store engine).1 h
    refine ⟨hc, hs, fun cache hr token size => ⟨?_, ?_⟩⟩
    · rw [picture_eq_paintToken]
      exact tokenOutcome_paintToken hr.coherent _ token size
    · rw [thumbnail_eq_paintToken]
      exact tokenOutcome_paintToken hr.coherent _ token size
  · intro token attributes h name hn
    exact Attributes.mem_names_of_generate h hn
  · intro token
    rw [Checked.generate_eq, Attributes.generate]
    cases TokenId.parse token <;> rfl

/-- An engine with masks of two pixels, after a thumbnail that fails. -/
theorem ofStore_picture_two_pixels :
    ∃ engine cache image,
      ofStore .default ⟨.ofList (Catalog.names.map fun name =>
          (name, Image.pair (.rgba 0 0 0 255) .clear))⟩ = .ok engine ∧
      engine.Reachable cache ∧
      ((engine.picture "1234100056780007" 2).runOn cache).1 = .ok image ∧
      image.width = 2 ∧ image.height = 2 ∧
      ((engine.thumbnail "0x10" 2).runOn cache).1 = .error (.invalidToken (.notDecimal "0x10")) ∧
      ((engine.picture "7" 0).runOn cache).1 = .error .invalidDimensions := by
  have hr {engine : Engine} : engine.Reachable ((engine.thumbnail "" 1).runOn Cache.empty).2 :=
    .thumbnail "" 1 .empty
  obtain ⟨exists_iff, -, outcome, -, -⟩ := ofStore_picture .default
    ⟨.ofList (Catalog.names.map fun name => (name, Image.pair (.rgba 0 0 0 255) .clear))⟩
  obtain ⟨engine, he⟩ := exists_iff.2 (by
    intro name hn
    simpa [Store.contains] using hn)
  obtain ⟨-, -, outcome⟩ := outcome engine he
  have hp := (outcome _ hr "1234100056780007" 2).1
  have parsed : ∃ id, TokenId.parse "1234100056780007" = .ok id := ⟨_, rfl⟩
  obtain ⟨image, hi⟩ := hp.isOk_iff.2 ⟨parsed, by decide, by decide⟩
  refine ⟨engine, _, image, he, hr, hi, (hp.square image hi).1, (hp.square image hi).2, ?_, ?_⟩
  · exact ((outcome _ hr "0x10" 2).2.unreadable _ rfl).1
  · exact (outcome _ hr "7" 0).1.outOfBounds _ rfl (by decide)

end Engine

end Koi
