import Koi.Command.Run
import Koi.Proofs.Config
import Koi.Proofs.Engine
import Koi.Proofs.Mask.Directory

/-!
# The engine under some settings

Every command with masks reads the configuration first and the masks then. Either there is an
engine, or the command is halted with an exit code that depends on the settings, the codec and what
can be read alone.

* `Command.Ends`: exit code and world of a command.
* `Settings.configuration?`: the configuration; its sizes are edges of images.
* `Settings.engine`: the engine or the exit code; `engine_eq_ok_iff` says when there is one.
* `Settings.perform_of_engine`, `Settings.perform_of_engine_error`: what a command comes to.
-/

namespace Koi

/-! ## Ends of commands -/

/-- The exit code of a command that is halted. -/
def Halt.exitCode : Halt → UInt8
  | .failure e => e.exitCode
  | .panic => 101

theorem Halt.exitCode_ne_zero (halt : Halt) : halt.exitCode ≠ 0 := by
  cases halt with
  | panic => decide
  | failure e =>
    show e.exitCode ≠ 0
    unfold Error.exitCode
    split <;> decide

namespace Command

/-- The exit code of what a command comes to. -/
def codeOf : Except Halt Report → UInt8
  | .ok _ => 0
  | .error halt => halt.exitCode

/-- A command ends with a code: a success leaves a world that is done, and any other end leaves the
    world as it is unless a file could not be written. -/
structure Ends {σ : Type} (code : UInt8) (Done : σ → Prop) (world : σ)
    (outcome : Except Halt Report × σ) : Prop where
  code_eq : codeOf outcome.1 = code
  unchanged : code ≠ 0 → code ≠ 11 → outcome.2 = world
  done : code = 0 → Done outcome.2

namespace Ends

variable {σ : Type} {code : UInt8} {Done : σ → Prop} {world left : σ}

theorem of_halt {halt : Halt} (exit : halt.exitCode = code) :
    Ends code Done world (.error halt, world) where
  code_eq := exit
  unchanged := fun _ _ => rfl
  done := fun zero => absurd (exit.trans zero) halt.exitCode_ne_zero

/-- A file that could not be written: the world may be left in any state. -/
theorem of_notWritten (path : String) :
    Ends 11 Done world (.error (.failure (.notWritten path)), left) where
  code_eq := rfl
  unchanged := fun _ written => absurd rfl written
  done := fun zero => absurd zero (by decide)

theorem of_ok {report : Report} (done : Done left) : Ends 0 Done world (.ok report, left) where
  code_eq := rfl
  unchanged := fun failed => absurd rfl failed
  done := fun _ => done

end Ends

theorem exitCode_ofResult (json : Bool) (result : Except Halt Report) :
    (Output.ofResult json result).exitCode = codeOf result := by
  rcases result with ⟨_ | _⟩ | report
  · rfl
  · rfl
  · simp only [Output.ofResult, Output.ofReport]
    split
    · rfl
    · split <;> rfl

end Command

/-! ## Configurations in files -/

namespace FileView

/-- The configuration in a file, if a JSON object stands there. -/
def config? (view : FileView) (path : String) : Option Config := do
  let content ← view.read path
  let text ← String.fromUTF8? content
  let value ← Json.parse text
  if value.isObject then some (Config.ofJson value) else none

theorem hasValidSizes_of_config? {view : FileView} {path : String} {config : Config}
    (h : view.config? path = some config) : config.HasValidSizes := by
  obtain ⟨content, -, h⟩ := Option.bind_eq_some_iff.1 h
  obtain ⟨text, -, h⟩ := Option.bind_eq_some_iff.1 h
  obtain ⟨value, -, h⟩ := Option.bind_eq_some_iff.1 h
  split at h
  · obtain rfl := Option.some.inj h
    exact Config.hasValidSizes_ofJson value
  · cases h

end FileView

variable {σ α : Type} {files : FileAccess (StateM σ)}

/-- Reading a configuration leaves the world as it is. -/
theorem perform_config (passive : files.IsPassive) (path : String) (world : σ) : ∃ fault,
    perform world (Config.load files path) =
      (((files.view world).config? path).elim (.error (.failure (.config path fault))) .ok,
        world) := by
  simp only [Config.load, FileView.config?]
  rw [perform_bind_ok (perform_read passive path world)]
  cases (files.view world).read path with
  | none => exact ⟨.unreadable, rfl⟩
  | some content =>
    simp only [Config.ofContent, Option.bind_eq_bind, Option.bind_some]
    cases String.fromUTF8? content with
    | none => exact ⟨.unreadable, rfl⟩
    | some text =>
      cases parsed : Json.parse text with
      | none => exact ⟨.notJson, by simp [parsed, Except.mapError]⟩
      | some value =>
        refine ⟨.notAnObject, ?_⟩
        simp only [parsed, Option.bind_some]
        cases value.isObject <;> rfl

/-! ## Engines of settings -/

instance (store : Store) : Decidable store.Complete :=
  inferInstanceAs (Decidable (∀ name ∈ Catalog.names, store.contains name = true))

namespace Settings

variable {settings : Settings} {view : FileView} {codec : ImageCodec}

/-- The configuration under some settings. -/
def configuration? (settings : Settings) (view : FileView) : Option Config :=
  (settings.config.elim (some Config.default) view.config?).map fun config =>
    { config with assetDir := settings.assets.getD config.assetDir }

/-- The engine under some settings, or the exit code if there is none: the configuration comes
    first, then the masks. -/
def engine (settings : Settings) (view : FileView) (codec : ImageCodec) : Except UInt8 Engine :=
  match settings.configuration? view with
  | none => .error 12
  | some config =>
    match view.masks codec config.assetDir with
    | .error .panic => .error 101
    | .error (.failure _) => .error 10
    | .ok store =>
      if complete : store.Complete then .ok ⟨config, store, complete⟩ else .error 10

theorem hasValidSizes_of_configuration? {config : Config}
    (h : settings.configuration? view = some config) : config.HasValidSizes := by
  obtain ⟨base, read, rfl⟩ := Option.map_eq_some_iff.1 h
  have sizes : base.HasValidSizes := by
    cases named : settings.config with
    | none =>
      rw [named] at read
      obtain rfl := Option.some.inj read
      exact Config.hasValidSizes_default
    | some path =>
      rw [named] at read
      exact FileView.hasValidSizes_of_config? read
  exact ⟨sizes.picture, sizes.thumbnail, sizes.warm⟩

theorem engine_eq_ok_iff {engine : Engine} : settings.engine view codec = .ok engine ↔
    settings.configuration? view = some engine.config ∧
      view.masks codec engine.config.assetDir = .ok engine.store := by
  constructor
  · intro h
    unfold Settings.engine at h
    split at h
    · cases h
    · next config known =>
      split at h
      · cases h
      · cases h
      · next store loaded =>
        split at h
        · obtain rfl := Except.ok.inj h
          exact ⟨known, loaded⟩
        · cases h
  · rintro ⟨known, loaded⟩
    simp only [Settings.engine, known, loaded, engine.complete, dif_pos]

theorem perform_configure (passive : files.IsPassive) (settings : Settings) (world : σ) :
    ∃ path fault, perform world (settings.configure files) =
      ((settings.configuration? (files.view world)).elim (.error (.failure (.config path fault)))
        .ok, world) := by
  unfold configure configuration?
  cases settings.config with
  | none => exact ⟨"", .unreadable, rfl⟩
  | some path =>
    obtain ⟨fault, read⟩ := perform_config passive path world
    refine ⟨path, fault, ?_⟩
    cases known : (files.view world).config? path with
    | none =>
      rw [known] at read
      exact (perform_bind_error read _).trans (by simp [known])
    | some config =>
      rw [known] at read
      exact (perform_bind_ok read _).trans (by simp [known])

/-- Loading an engine comes to the masks of the directory, which have to be complete. -/
theorem perform_load_engine (passive : files.IsPassive) (codec : ImageCodec) (config : Config)
    (world : σ) : perform world (Engine.load codec files config) =
      (((files.view world).masks codec config.assetDir).bind fun store =>
        (Engine.ofStore config store).mapError .failure, world) := by
  have loaded := perform_load passive codec config.assetDir world
  cases read : (files.view world).masks codec config.assetDir with
  | error halt =>
    rw [read] at loaded
    exact perform_bind_error loaded _
  | ok store =>
    rw [read] at loaded
    exact perform_bind_ok loaded _

/-- A command goes on with the engine under its settings. -/
theorem perform_of_engine (passive : files.IsPassive) {world : σ} {engine : Engine}
    (h : settings.engine (files.view world) codec = .ok engine)
    (next : Config → Engine → ExceptT Halt (StateM σ) α) :
    perform world (do
      let config ← settings.configure files
      let engine ← Engine.load codec files config
      next config engine) = perform world (next engine.config engine) := by
  obtain ⟨known, loaded⟩ := engine_eq_ok_iff.1 h
  obtain ⟨path, fault, configured⟩ := perform_configure passive settings world
  have engine_loaded := perform_load_engine passive codec engine.config world
  have made : (Engine.ofStore engine.config engine.store).mapError Halt.failure = .ok engine :=
    congrArg (Except.mapError _) (Engine.ofStore_of_complete engine.config engine.complete)
  rw [known] at configured
  rw [loaded, Except.bind, made] at engine_loaded
  rw [perform_bind_ok configured, perform_bind_ok engine_loaded]

/-- Masks that make no engine halt a command with the code under the settings. -/
theorem exitCode_of_masks {config : Config} {code : UInt8}
    (known : settings.configuration? view = some config)
    (h : settings.engine view codec = .error code) : ∃ halt : Halt,
    ((view.masks codec config.assetDir).bind fun store =>
        (Engine.ofStore config store).mapError .failure) = .error halt ∧
      halt.exitCode = code := by
  simp only [Settings.engine, known] at h
  split at h
  · next loaded =>
    rw [loaded]
    exact ⟨.panic, rfl, Except.error.inj h⟩
  · next e loaded =>
    rw [loaded]
    refine ⟨.failure e, rfl, ?_⟩
    obtain rfl := Except.error.inj h
    obtain ⟨-, rfl⟩ | ⟨name, -, rfl⟩ := FileView.masks_eq_failure_iff.1 loaded
    · rfl
    · rfl
  · next store loaded =>
    rw [loaded]
    split at h
    · cases h
    · next incomplete =>
      cases verified : store.verify with
      | ok => exact absurd ((store.verify_eq_ok_iff).1 verified) incomplete
      | error e =>
        have fails := Engine.ofStore_of_verify_error config verified
        obtain ⟨name, -, rfl⟩ := (Store.verify_eq_error_iff store e).1 verified
        exact ⟨_, congrArg (Except.mapError _) fails, Except.error.inj h⟩

/-- Without an engine a command is halted with the code under its settings, and leaves the world as
    it is. -/
theorem perform_of_engine_error (passive : files.IsPassive) {world : σ} {code : UInt8}
    (h : settings.engine (files.view world) codec = .error code)
    (next : Config → Engine → ExceptT Halt (StateM σ) α) : ∃ halt : Halt,
    halt.exitCode = code ∧ perform world (do
      let config ← settings.configure files
      let engine ← Engine.load codec files config
      next config engine) = (.error halt, world) := by
  obtain ⟨path, fault, configured⟩ := perform_configure passive settings world
  cases known : settings.configuration? (files.view world) with
  | none =>
    simp only [Settings.engine, known] at h
    obtain rfl := Except.error.inj h
    rw [known] at configured
    exact ⟨.failure (.config path fault), rfl, perform_bind_error configured _⟩
  | some config =>
    obtain ⟨halt, fails, exit⟩ := exitCode_of_masks known h
    have engine_loaded := perform_load_engine passive codec config world
    rw [known] at configured
    rw [fails] at engine_loaded
    refine ⟨halt, exit, ?_⟩
    rw [perform_bind_ok configured, perform_bind_error engine_loaded]

theorem ne_zero_of_engine_error {code : UInt8} (h : settings.engine view codec = .error code) :
    code ≠ 0 := by
  cases known : settings.configuration? view with
  | none =>
    simp only [Settings.engine, known] at h
    obtain rfl := Except.error.inj h
    decide
  | some config =>
    obtain ⟨halt, -, exit⟩ := exitCode_of_masks known h
    rw [← exit]
    exact halt.exitCode_ne_zero

end Settings

end Koi
