import Koi.Config
import Koi.Proofs.Mask.Coherence

/-!
# Configurations

A size that images may not have never gets into a configuration: it is dropped where it is read,
and the default that takes its place is fine.

* `Config.HasValidSizes`: all sizes of a configuration are edges of images.
* `Config.hasValidSizes_default`, `Config.hasValidSizes_ofJson`: every configuration that is read
  from some value is of this kind.
-/

namespace Koi.Config

/-- All sizes of a configuration are edges that images may have. -/
structure HasValidSizes (c : Config) : Prop where
  picture : ValidSize c.defaultSize
  thumbnail : ValidSize c.thumbnailSize
  warm : ValidSizes c.warmSizes

theorem hasValidSizes_default : default.HasValidSizes where
  picture := by decide
  thumbnail := by decide
  warm := by decide

theorem validSize_of_size? {value : Json} {size : UInt32} (h : size? value = some size) :
    ValidSize size := by
  obtain ⟨n, -, h⟩ := Option.bind_eq_some_iff.1 h
  split at h
  · next valid =>
    obtain rfl := Option.some.inj h
    exact valid.2
  · cases h

theorem validSizes_of_mapM_size? {values : List Json} {sizes : List UInt32}
    (h : values.mapM size? = some sizes) : ValidSizes sizes := by
  induction values generalizing sizes with
  | nil =>
    obtain rfl : [] = sizes := by simpa using h
    exact List.forall_mem_nil _
  | cons value rest ih =>
    rw [List.mapM_cons] at h
    obtain ⟨size, hs, h⟩ := Option.bind_eq_some_iff.1 h
    obtain ⟨others, ho, h⟩ := Option.bind_eq_some_iff.1 h
    obtain rfl := Option.some.inj h
    exact validSizes_cons.2 ⟨validSize_of_size? hs, ih ho⟩

theorem validSizes_of_sizes? {value : Json} {sizes : List UInt32} (h : sizes? value = some sizes) :
    ValidSizes sizes := by
  obtain ⟨values, -, h⟩ := Option.bind_eq_some_iff.1 h
  exact validSizes_of_mapM_size? h

/-- What is read from a member is as good as its default, if nothing worse is ever read. -/
theorem getD_bind_of {α : Type} {Good : α → Prop} {read : Json → Option α} {fallback : α}
    (good : Good fallback) (reads : ∀ {value a}, read value = some a → Good a)
    (member : Option Json) : Good ((member.bind read).getD fallback) := by
  cases h : member.bind read with
  | none => exact good
  | some a =>
    obtain ⟨value, -, h⟩ := Option.bind_eq_some_iff.1 h
    exact reads h

/-- The configuration of any value has sizes that images may have. -/
theorem hasValidSizes_ofJson (value : Json) : (ofJson value).HasValidSizes where
  picture := getD_bind_of hasValidSizes_default.picture validSize_of_size? _
  thumbnail := getD_bind_of hasValidSizes_default.thumbnail validSize_of_size? _
  warm := getD_bind_of hasValidSizes_default.warm validSizes_of_sizes? _

end Koi.Config
