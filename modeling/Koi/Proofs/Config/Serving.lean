import Koi.Proofs.Config.Reading
import Koi.Proofs.Engine
import Koi.Proofs.Warming

/-!
# Configurations that engines can serve

Whatever a configuration is read from, its sizes are edges of images, and no value has influence on
a setting but the one under the key of the setting. So an engine never refuses the sizes that it is
configured with.

* `Json.member?_insert`: members with other keys do not matter for a key.
* `Config.Setting`: the settings and their keys; `Setting.agree_ofJson` says that a setting depends
  on the value under its own key only.
* `Config.warmSizes_of_unusable`: one item that is no size leaves the default list.
* `Config.ofJson_served`: all of this, and what an engine with such a configuration does.
-/

namespace Koi

/-- A member does not matter for the other keys, wherever it stands. -/
theorem Json.member?_insert {key other : String} (ne : other ≠ key) (value : Json)
    (before after : List (String × Json)) :
    (Json.object (before ++ (other, value) :: after)).member? key =
      (Json.object (before ++ after)).member? key := by
  have key_ne : (key == other) = false := by simpa using ne.symm
  simp only [member?, List.reverse_append, List.reverse_cons, List.lookup_append,
    List.lookup_cons, key_ne, List.lookup_nil, Option.or_none]

/-- A picture is refused for its size only if images may not have this size. -/
theorem TokenOutcome.ne_invalidDimensions {token : String} {size : UInt32}
    {result : Except Error Image} (h : TokenOutcome token size result) (valid : ValidSize size) :
    result ≠ .error .invalidDimensions := by
  intro refused
  cases parsed : TokenId.parse token with
  | ok id =>
    obtain ⟨image, ok⟩ := h.isOk_iff.2 ⟨⟨id, parsed⟩, valid⟩
    cases ok.symm.trans refused
  | error e =>
    obtain ⟨error, fault, rfl⟩ := h.unreadable e parsed
    cases error.symm.trans refused

namespace Config

/-! ## Settings and their keys -/

/-- The settings of a configuration. -/
inductive Setting where
  | assetDir
  | warmSizes
  | workerThreads
  | defaultSize
  | thumbnailSize

/-- The key under which the value of a setting stands. -/
def Setting.key : Setting → String
  | .assetDir => "asset_dir"
  | .warmSizes => "warm_sizes"
  | .workerThreads => "worker_threads"
  | .defaultSize => "default_size"
  | .thumbnailSize => "thumbnail_size"

/-- Two configurations agree in a setting. -/
def Setting.Agree (c d : Config) : Setting → Prop
  | .assetDir => c.assetDir = d.assetDir
  | .warmSizes => c.warmSizes = d.warmSizes
  | .workerThreads => c.workerThreads = d.workerThreads
  | .defaultSize => c.defaultSize = d.defaultSize
  | .thumbnailSize => c.thumbnailSize = d.thumbnailSize

/-- A setting depends on the value under its own key only. -/
theorem Setting.agree_ofJson {setting : Setting} {json other : Json}
    (same : json.member? setting.key = other.member? setting.key) :
    setting.Agree (ofJson json) (ofJson other) := by
  cases setting <;> simp only [key] at same <;> simp only [Agree, ofJson, same]

/-- One item that is not the edge of an image leaves the default list. -/
theorem warmSizes_of_unusable {json : Json} {items : List Json} {item : Json}
    (listed : json.member? "warm_sizes" = some (.array items)) (hm : item ∈ items)
    (unusable : ∀ size, ¬ IsEdge item size) : (ofJson json).warmSizes = [200, 350, 1024] := by
  have read : (ofJson json).IsReadFrom json := isReadFrom_iff.2 rfl
  have settled := read.warmSizes
  rw [listed] at settled
  generalize (ofJson json).warmSizes = sizes at settled ⊢
  cases settled with
  | taken edges => exact absurd edges (not_areEdges_of_mem hm unusable sizes)
  | unusable => rfl

/-! ## Engines -/

/-- The sizes of a configuration that is read from any value lie between 1 and 4096. Each setting is
    settled by the value under its own key: it stays as it is if this value does, so a member with
    another key may be put anywhere, and one item that is no size makes the whole list of sizes the
    default one. An engine with such a configuration scales its masks to the configured sizes and
    does not refuse the configured sizes of pictures and thumbnails, whatever it has done before. -/
theorem ofJson_served (json : Json) :
    ((1 ≤ (ofJson json).defaultSize.toNat ∧ (ofJson json).defaultSize.toNat ≤ 4096) ∧
      (1 ≤ (ofJson json).thumbnailSize.toNat ∧ (ofJson json).thumbnailSize.toNat ≤ 4096) ∧
      ∀ size ∈ (ofJson json).warmSizes, 1 ≤ size.toNat ∧ size.toNat ≤ 4096) ∧
    (ofJson json).IsReadFrom json ∧
    (∀ (setting : Setting) (other : Json), json.member? setting.key = other.member? setting.key →
      setting.Agree (ofJson json) (ofJson other)) ∧
    (∀ (setting : Setting) (key : String) (value : Json) (before after : List (String × Json)),
      key ≠ setting.key → json = .object (before ++ after) →
        setting.Agree (ofJson json) (ofJson (.object (before ++ (key, value) :: after)))) ∧
    (∀ items, json.member? "warm_sizes" = some (.array items) →
      (∃ item ∈ items, ∀ size, ¬ IsEdge item size) →
        (ofJson json).warmSizes = [200, 350, 1024]) ∧
    (∀ store : Store, store.Complete →
      ∃ engine, Engine.ofStore (ofJson json) store = .ok engine ∧
        ∀ cache, engine.Reachable cache →
          (∃ counts, (engine.warmConfigured.runOn cache).1 = .ok counts) ∧
          ∀ token,
            ((engine.picture token (ofJson json).defaultSize).runOn cache).1 ≠
              .error .invalidDimensions ∧
            ((engine.thumbnail token (ofJson json).thumbnailSize).runOn cache).1 ≠
              .error .invalidDimensions) := by
  have valid := hasValidSizes_ofJson json
  refine ⟨⟨valid.picture, valid.thumbnail, valid.warm⟩, isReadFrom_iff.2 rfl,
    fun setting other same => Setting.agree_ofJson same, ?_, ?_, ?_⟩
  · rintro setting key value before after ne rfl
    exact Setting.agree_ofJson (Json.member?_insert ne value before after).symm
  · rintro items listed ⟨item, hm, unusable⟩
    exact warmSizes_of_unusable listed hm unusable
  · intro store complete
    refine ⟨_, Engine.ofStore_of_complete _ complete, fun cache reachable => ⟨?_, fun token => ?_⟩⟩
    · rw [Engine.warmConfigured, Engine.warm, Cache.runOn_warm_of_valid _ valid.warm]
      exact ⟨_, rfl⟩
    · rw [Engine.picture_eq_paintToken, Engine.thumbnail_eq_paintToken]
      exact ⟨(Engine.tokenOutcome_paintToken reachable.coherent _ token _).ne_invalidDimensions
          valid.picture,
        (Engine.tokenOutcome_paintToken reachable.coherent _ token _).ne_invalidDimensions
          valid.thumbnail⟩

/-- A size that is too large, a size that is fine, and a list with a zero in it. -/
def spoiledMembers : List (String × Json) :=
  [("default_size", .ofNat 4097), ("thumbnail_size", .ofNat 96),
    ("warm_sizes", .array [.ofNat 64, .ofNat 0])]

/-- The spoiled values are replaced by defaults and the other one stays, also if a directory comes
    in between; an engine with masks of two pixels is served. -/
theorem ofJson_served_spoiled :
    (ofJson (.object spoiledMembers)).defaultSize = 1024 ∧
    (ofJson (.object spoiledMembers)).thumbnailSize = 96 ∧
    (ofJson (.object spoiledMembers)).warmSizes = [200, 350, 1024] ∧
    (ofJson (.object spoiledMembers)).thumbnailSize =
      (ofJson (.object (spoiledMembers.take 1 ++ ("asset_dir", .string "masks") ::
        spoiledMembers.drop 1))).thumbnailSize ∧
    ∃ engine, Engine.ofStore (ofJson (.object spoiledMembers))
        ⟨.ofList (Catalog.names.map fun name =>
          (name, Image.pair (.rgba 0 0 0 255) .clear))⟩ = .ok engine ∧
      ∃ counts, (engine.warmConfigured.runOn Cache.empty).1 = .ok counts := by
  obtain ⟨-, -, -, insert, unusable, served⟩ := ofJson_served (.object spoiledMembers)
  have zero (size : UInt32) : ¬ IsEdge (.ofNat 0) size := by
    rintro ⟨same, valid⟩
    have value := congrArg UInt64.toNat (Json.Number.unsigned.inj (Json.number.inj same))
    rw [UInt32.toNat_toUInt64] at value
    exact absurd valid.1 (by rw [← value]; decide)
  obtain ⟨engine, built, warmed⟩ :=
    served ⟨.ofList (Catalog.names.map fun name => (name, Image.pair (.rgba 0 0 0 255) .clear))⟩ (by
      intro name hn
      simpa [Store.contains] using hn)
  refine ⟨by decide, by decide, unusable _ rfl ⟨.ofNat 0, by simp, zero⟩,
    insert .thumbnailSize "asset_dir" (.string "masks") (spoiledMembers.take 1)
      (spoiledMembers.drop 1) (by decide) rfl, engine, built, (warmed _ .empty).1⟩

end Config

end Koi
