import Koi.Proofs.Command.Render
import Koi.Proofs.Mask.Saving
import Koi.Proofs.Warming

/-!
# Whole program runs

A line that asks for a picture and one that checks the masks go through the same first stages, so
the check tells what the picture will come to.

* `Command.runOn`: a program run on a host, in a world.
* `Command.renderCode`, `Command.checkCode`: the exit codes of the two commands.
* `Command.runOn_render_line`: exit code and world of every line that asks for a picture.
* `Command.not_forall_exitCode_eq_ten`: a mask at which the decoder panics does not exit like the
  others.
-/

namespace Koi

namespace Command

section

variable {σ : Type} {host : Host (StateM σ)} {world : σ} {words : List String}
  {settings : Settings} {order : RenderOrder}

/-- A program run with the words of a command line in a world. -/
def runOn (host : Host (StateM σ)) (world : σ) (words : List String) : Output × σ :=
  (run host words).run world

/-- What a line with a command comes to. -/
def outcomeOn (host : Host (StateM σ)) (world : σ) (settings : Settings) (command : Command) :
    Except Halt Report × σ :=
  perform world do command.report host (← settings.configure host.files)

theorem runOn_of_line {command : Command} (line : ofLine words = .ok (settings, command))
    (host : Host (StateM σ)) (world : σ) : runOn host world words =
      (Output.ofResult settings.json (outcomeOn host world settings command).1,
        (outcomeOn host world settings command).2) := by
  rw [runOn, run, line]
  rfl

/-- The exit code of an order under some settings. -/
def renderCode (host : Host (StateM σ)) (world : σ) (settings : Settings) (order : RenderOrder) :
    UInt8 :=
  match settings.engine (host.files.view world) host.codec with
  | .error code => code
  | .ok engine => order.exitCode engine host world

/-- The exit code of checking the masks under some settings. -/
def checkCode (host : Host (StateM σ)) (world : σ) (settings : Settings) : UInt8 :=
  match settings.engine (host.files.view world) host.codec with
  | .error code => code
  | .ok _ => 0

theorem renderCode_of_engine {engine : Engine}
    (found : settings.engine (host.files.view world) host.codec = .ok engine) :
    renderCode host world settings order = order.exitCode engine host world := by
  rw [renderCode, found]

theorem renderCode_of_engine_error {code : UInt8}
    (found : settings.engine (host.files.view world) host.codec = .error code) :
    renderCode host world settings order = code := by
  rw [renderCode, found]

theorem checkCode_of_engine {engine : Engine}
    (found : settings.engine (host.files.view world) host.codec = .ok engine) :
    checkCode host world settings = 0 := by
  rw [checkCode, found]

/-- An order ends with its code. It is fulfilled with the engine under the settings, or its file
    cannot be written, or it leaves the world as it is. -/
theorem ends_render (host : Host (StateM σ)) (passive : host.files.IsPassive) (world : σ)
    (settings : Settings) (order : RenderOrder) :
    Ends (renderCode host world settings order)
      (fun after => ∃ engine, settings.engine (host.files.view world) host.codec = .ok engine ∧
        order.Fulfilled engine host world after)
      world (outcomeOn host world settings (.render order)) := by
  cases found : settings.engine (host.files.view world) host.codec with
  | error code =>
    obtain ⟨halt, exit, halted⟩ :=
      Settings.perform_of_engine_error passive found (order.deliver host)
    have outcome : outcomeOn host world settings (.render order) = (.error halt, world) := halted
    rw [outcome, renderCode_of_engine_error found]
    exact .of_halt exit
  | ok engine =>
    have outcome : outcomeOn host world settings (.render order) =
      perform world (order.deliver host engine.config engine) :=
        Settings.perform_of_engine passive found (order.deliver host)
    have ends := order.ends_deliver engine host world
    rw [outcome, renderCode_of_engine found]
    exact ⟨ends.code_eq, ends.unchanged, fun zero => ⟨engine, rfl, ends.done zero⟩⟩

/-- Scaling the masks in advance succeeds with sizes that images may have. -/
theorem exists_perform_warming {engine : Engine} (valid : ValidSizes engine.config.warmSizes)
    (host : Host (StateM σ)) (world : σ) : ∃ done left,
    perform world (warming host engine) = (.ok done, left) := by
  have warmed : runFresh engine.warmConfigured =
      ((Cache.warm engine.store engine.config.warmSizes).runOn Cache.empty).1 := rfl
  rw [warming, warmed, Cache.runOn_warm_of_valid engine.store valid]
  exact ⟨_, _, rfl⟩

/-- What is done when the engine that is checked is there. -/
def finishCheck (host : Host (StateM σ)) (warm : Bool) (config : Config) (engine : Engine) :
    ExceptT Halt (StateM σ) Report := do
  let warmed ← if warm then some <$> warming host engine else pure none
  return .checked config.assetDir engine.store.size warmed

theorem exists_perform_finishCheck {engine : Engine} (valid : ValidSizes engine.config.warmSizes)
    (host : Host (StateM σ)) (world : σ) (warm : Bool) : ∃ report left,
    perform world (finishCheck host warm engine.config engine) = (.ok report, left) := by
  cases warm with
  | false => exact ⟨_, _, rfl⟩
  | true =>
    obtain ⟨done, left, warmed⟩ := exists_perform_warming valid host world
    have counted : perform world (some <$> warming host engine) = (.ok (some done), left) := by
      rw [← bind_pure_comp]
      exact perform_bind_ok warmed _
    exact ⟨_, left, perform_bind_ok counted _⟩

/-- Checking the masks ends with its code, whether they are scaled or not. -/
theorem codeOf_checkAssets (host : Host (StateM σ)) (passive : host.files.IsPassive) (world : σ)
    (settings : Settings) (warm : Bool) :
    codeOf (outcomeOn host world settings (.checkAssets warm)).1 =
      checkCode host world settings := by
  cases found : settings.engine (host.files.view world) host.codec with
  | error code =>
    obtain ⟨halt, exit, halted⟩ :=
      Settings.perform_of_engine_error passive found (finishCheck host warm)
    have outcome : outcomeOn host world settings (.checkAssets warm) = (.error halt, world) :=
      halted
    rw [outcome, checkCode, found]
    exact exit
  | ok engine =>
    obtain ⟨known, -⟩ := Settings.engine_eq_ok_iff.1 found
    have sizes := Settings.hasValidSizes_of_configuration? known
    obtain ⟨report, left, finished⟩ := exists_perform_finishCheck sizes.warm host world warm
    have outcome : outcomeOn host world settings (.checkAssets warm) = (.ok report, left) :=
      (Settings.perform_of_engine passive found (finishCheck host warm)).trans finished
    rw [outcome, checkCode_of_engine found]
    rfl

/-- Masks that pass the check leave nothing but the file to fail, for a token that can be read and
    a size that images may have, or none. -/
theorem renderCode_of_checkCode (passed : checkCode host world settings = 0)
    (readable : ∃ id, TokenId.parse order.token = .ok id)
    (valid : ∀ size ∈ order.size, ValidSize size) :
    renderCode host world settings order = 0 ∨ renderCode host world settings order = 11 := by
  obtain ⟨id, parsed⟩ := readable
  cases found : settings.engine (host.files.view world) host.codec with
  | error code =>
    rw [checkCode, found] at passed
    exact absurd passed (Settings.ne_zero_of_engine_error found)
  | ok engine =>
    obtain ⟨known, -⟩ := Settings.engine_eq_ok_iff.1 found
    have sizes := Settings.hasValidSizes_of_configuration? known
    -- A size that is not on the line comes from the configuration, which has been checked.
    have edge : ValidSize (order.edge engine.config) := by
      unfold RenderOrder.edge
      cases given : order.size with
      | some size => exact valid size given
      | none =>
        cases order.thumbnail with
        | true => exact sizes.thumbnail
        | false => exact sizes.picture
    rw [renderCode_of_engine found, RenderOrder.exitCode_of_validSize parsed edge]
    split
    · exact .inl rfl
    · exact .inr rfl

/-- No stage fails for a picture that is there and whose file can be written. -/
theorem renderCode_eq_zero {engine : Engine} {id : TokenId} {image : Image}
    (found : settings.engine (host.files.view world) host.codec = .ok engine)
    (parsed : TokenId.parse order.token = .ok id) (valid : ValidSize (order.edge engine.config))
    (drawn : draw engine order (order.edge engine.config) = .ok image)
    (writable : host.canSave world order.output image = true) :
    renderCode host world settings order = 0 := by
  rw [renderCode_of_engine found, RenderOrder.exitCode_of_validSize parsed valid,
    RenderOrder.picture?_of_draw drawn, Option.any_some, if_pos writable]

/-- A line that asks for a picture exits with the code of the first stage that fails: 12 for the
    configuration, 10 or 101 for the masks, 12 for the token, 10 for the size and 11 for the file. A
    failure other than the last one leaves the world as it is, and a success leaves the file of the
    picture. Lines that check the masks under the same settings agree on their exit code. If they
    succeed, a token that can be read and a size that images may have, or none, leave nothing but
    the file to fail. All this holds on any host where reading leaves the world as it is. -/
theorem runOn_render_line (host : Host (StateM σ)) (passive : host.files.IsPassive)
    (line : ofLine words = .ok (settings, .render order)) (world : σ) :
    (runOn host world words).1.exitCode = renderCode host world settings order ∧
    ((runOn host world words).1.exitCode ≠ 0 → (runOn host world words).1.exitCode ≠ 11 →
      (runOn host world words).2 = world) ∧
    ((runOn host world words).1.exitCode = 0 → ∃ engine,
      settings.engine (host.files.view world) host.codec = .ok engine ∧
      order.Fulfilled engine host world (runOn host world words).2) ∧
    ∀ plain warmed now later, ofLine plain = .ok (settings, .checkAssets false) →
      ofLine warmed = .ok (settings, .checkAssets true) →
      (runOn { host with clock := now } world plain).1.exitCode = checkCode host world settings ∧
      (runOn { host with clock := later } world warmed).1.exitCode =
        checkCode host world settings ∧
      (checkCode host world settings = 0 → (∃ id, TokenId.parse order.token = .ok id) →
        (∀ size ∈ order.size, ValidSize size) →
        (runOn host world words).1.exitCode = 0 ∨ (runOn host world words).1.exitCode = 11) := by
  have ends := ends_render host passive world settings order
  have code : (runOn host world words).1.exitCode = renderCode host world settings order := by
    rw [runOn_of_line line, exitCode_ofResult]
    exact ends.code_eq
  have check {warm : Bool} {other : List String} {now : StateM σ Nat}
      (other_line : ofLine other = .ok (settings, .checkAssets warm)) :
      (runOn { host with clock := now } world other).1.exitCode =
        checkCode host world settings := by
    rw [runOn_of_line other_line, exitCode_ofResult]
    exact codeOf_checkAssets { host with clock := now } passive world settings warm
  rw [code, runOn_of_line line]
  refine ⟨rfl, ends.unchanged, ends.done, ?_⟩
  intro plain warmed now later plain_line warmed_line
  exact ⟨check plain_line, check warmed_line, renderCode_of_checkCode⟩

end

/-! ## On a tree of files -/

/-- A tree of files and a clock, with images in PNG files. -/
def treeHost (clock : StateM FileTree Nat) : Host (StateM FileTree) :=
  ⟨FileTree.access, Png.codec, clock⟩

/-- The file of every picture shows it. -/
theorem isLossless_of_draw {engine : Engine} {order : RenderOrder} {image : Image}
    (drawn : draw engine order (order.edge engine.config) = .ok image) :
    Png.codec.IsLossless image := by
  have outcome := order.tokenOutcome_draw engine
  obtain ⟨-, low, high⟩ := outcome.isOk_iff.1 ⟨image, drawn⟩
  obtain ⟨width, height⟩ := outcome.square image drawn
  have area : image.width * image.height ≤ 4096 * 4096 := by
    rw [width, height]
    exact Nat.mul_le_mul high high
  apply Png.isLossless
  · simp only [Image.isEmpty, width, height, Bool.or_eq_false_iff, decide_eq_false_iff_not]
    omega
  · simp only [Png.IsSmall, Png.Parts.maxImageSize]
    omega

/-- In a tree, an image can be written exactly where a path puts a file. -/
theorem canSave_treeHost {image : Image} (lossless : Png.codec.IsLossless image)
    (clock : StateM FileTree Nat) (tree : FileTree) (path : String) :
    (treeHost clock).canSave tree path image = (tree.target? path).isSome := by
  obtain ⟨file, encoded, -⟩ := lossless
  have put : ((treeHost clock).files.write path file).run tree = _ := tree.run_write path file
  have content : (treeHost clock).codec.encode? image = some file := encoded
  rw [Host.canSave, content, Option.any_some, put]
  cases tree.target? path <;> rfl

/-- A directory in which one file stands under the names of all layers. -/
def fullFolder (file : ByteArray) : FileTree :=
  FileTree.folder "m" (Catalog.names.map fun name => (name.fileName, file))

theorem lookup_map_fileName {names : List LayerName} {name : LayerName} (h : name ∈ names)
    (file : ByteArray) :
    (names.map fun name => (name.fileName, file)).lookup name.fileName = some file := by
  induction names with
  | nil => cases h
  | cons first rest ih =>
    rw [List.map_cons, List.lookup_cons]
    by_cases same : name.fileName = first.fileName
    · simp [same]
    · have later : name ∈ rest := by
        rcases List.mem_cons.1 h with rfl | h
        · exact absurd rfl same
        · exact h
      simp only [beq_false_of_ne same]
      exact ih later

/-- Such a directory has masks for all layers if the file shows an image. -/
theorem exists_masks_fullFolder {file : ByteArray} {image : Image}
    (decoded : Png.decode file = .ok image) :
    ∃ store, (fullFolder file).view.masks Png.codec "/m" = .ok store ∧ store.Complete := by
  have leads : (fullFolder file).LeadsTo "/m" ["m"] := FileTree.leadsTo_folder_m _
  have spelled : ∀ name ∈ Catalog.names, LayerName.ofFileName? name.fileName = some name ∧
      (joinPath "/m" name.fileName).utf8ByteSize ≤ FileTree.maxPathSize := by decide +kernel
  have listed : (fullFolder file).list "/m" =
      some (Catalog.names.map fun name => ⟨name.fileName, true⟩) := by
    rw [fullFolder, FileTree.list_folder leads]
    · rw [List.map_map]
      rfl
    · intro entry he
      obtain ⟨name, hn, rfl⟩ := List.mem_map.1 he
      exact (spelled name hn).2
  have has_mask : ∀ name, (fullFolder file).view.HasMask "/m" name ↔ name ∈ Catalog.names := by
    intro name
    rw [FileView.hasMask_iff listed]
    constructor
    · rintro ⟨entry, he, layer⟩
      obtain ⟨other, ho, rfl⟩ := List.mem_map.1 he
      rw [DirEntry.layer?, if_pos rfl, (spelled other ho).1] at layer
      rwa [← Option.some.inj layer]
    · intro hn
      exact ⟨_, List.mem_map_of_mem hn, (spelled name hn).1⟩
  have shown : ∀ name, (fullFolder file).view.HasMask "/m" name →
      ∃ mask, (fullFolder file).view.picture Png.codec "/m" name = .ok mask := by
    intro name has
    have hn := (has_mask name).1 has
    refine ⟨image, ?_⟩
    rw [FileView.picture, FileTree.read_view, fullFolder, FileTree.read_folder leads
      (LayerName.isPlain_fileName name) (spelled name hn).2, lookup_map_fileName hn]
    exact decoded
  obtain ⟨store, loaded, holds⟩ :=
    FileView.exists_masks (by rw [FileTree.list_view, listed]; simp) shown
  exact ⟨store, loaded, fun name hn => (holds name).2 ((has_mask name).2 hn)⟩

/-- A directory with masks for all layers, in which the program runs: the masks pass the check,
    scaled or not, and the picture of a token is written beside the directory. -/
theorem runOn_render_line_full_folder : ∃ (file : ByteArray) (image : Image) (engine : Engine),
    Png.codec.encode? (.pair (.rgba 1 2 3 128) (.rgba 250 40 9 255)) = some file ∧
    (runOn (treeHost (pure 0)) (fullFolder file) ["check-assets", "--assets", "/m"]).1.exitCode =
      0 ∧
    (runOn (treeHost (pure 1)) (fullFolder file)
      ["--assets", "/m", "check-assets", "--warm"]).1.exitCode = 0 ∧
    (runOn (treeHost (pure 2)) (fullFolder file)
      ["render", "7", "--assets", "/m", "-o", "../koi.png"]).1.exitCode = 0 ∧
    Png.codec.decodeRead ((runOn (treeHost (pure 2)) (fullFolder file)
      ["render", "7", "--assets", "/m", "-o", "../koi.png"]).2.read "../koi.png") = .ok image ∧
    ((engine.picture "7" 1024).runOn Cache.empty).1 = .ok image := by
  have small : Png.IsSmall (.pair (.rgba 1 2 3 128) (.rgba 250 40 9 255)) := by
    unfold Png.IsSmall
    decide
  obtain ⟨file, encoded, decoded⟩ := Png.isLossless rfl small
  obtain ⟨store, loaded, complete⟩ := exists_masks_fullFolder decoded
  let settings : Settings := ⟨false, none, some "/m"⟩
  let order : RenderOrder := ⟨"7", none, false, "../koi.png"⟩
  let engine : Engine := ⟨{ Config.default with assetDir := "/m" }, store, complete⟩
  let host : Host (StateM FileTree) := treeHost (pure 2)
  have found : settings.engine (fullFolder file).view Png.codec = .ok engine :=
    Settings.engine_eq_ok_iff.2 ⟨rfl, loaded⟩
  have free : (fullFolder file).target? "../koi.png" = some ["koi.png"] :=
    FileTree.target?_folder_beside (by decide +kernel) (by decide) (by decide +kernel)
      (by decide) (by decide) _
  have valid : ValidSize 1024 := by decide
  obtain ⟨id, parsed⟩ : ∃ id, TokenId.parse "7" = .ok id := ⟨_, rfl⟩
  obtain ⟨picture, drawn⟩ := (order.tokenOutcome_draw engine).isOk_iff.2 ⟨⟨id, parsed⟩, valid⟩
  have lossless := isLossless_of_draw drawn
  have writable : host.canSave (fullFolder file) order.output picture = true := by
    rw [canSave_treeHost lossless, free]
    rfl
  have code : renderCode host (fullFolder file) settings order = 0 :=
    renderCode_eq_zero found parsed valid drawn writable
  have passes : checkCode host (fullFolder file) settings = 0 := checkCode_of_engine found
  have line : ofLine ["render", "7", "--assets", "/m", "-o", "../koi.png"] =
    .ok (settings, .render order) := rfl
  obtain ⟨exit, -, done, checks⟩ :=
    runOn_render_line host FileTree.isPassive_access line (fullFolder file)
  obtain ⟨plain, warmed, -⟩ := checks ["check-assets", "--assets", "/m"]
    ["--assets", "/m", "check-assets", "--warm"] (pure 0) (pure 1) rfl rfl
  obtain ⟨_, same, image, _, painted, -, -, shown⟩ := done (exit.trans code)
  obtain rfl := Except.ok.inj (found.symm.trans same)
  have kept : image = picture :=
    Except.ok.inj
      ((painted _ .empty).symm.trans ((RenderOrder.painting_eq_draw .empty).trans drawn))
  refine ⟨file, image, engine, encoded, plain.trans passes, warmed.trans passes, exit.trans code,
    shown ?_ (FileTree.readsBack_access _), painted _ .empty⟩
  rw [kept]
  exact lossless

/-- The file of an indexed image of one pixel. Its palette ends within the second color. -/
def cutPaletteFile : ByteArray :=
  ⟨#[137, 80, 78, 71, 13, 10, 26, 10, 0, 0, 0, 13, 73, 72, 68, 82, 0, 0, 0, 1, 0, 0, 0, 1, 8, 3,
    0, 0, 0, 40, 203, 52, 187, 0, 0, 0, 4, 80, 76, 84, 69, 1, 2, 3, 4, 35, 219, 138, 171, 0, 0, 0,
    13, 73, 68, 65, 84, 120, 1, 1, 2, 0, 253, 255, 0, 0, 0, 2, 0, 1, 126, 5, 13, 210, 0, 0, 0, 0,
    73, 69, 78, 68, 174, 66, 96, 130]⟩

theorem compress_two_zeros :
    Png.compress ⟨#[0, 0]⟩ = ⟨#[120, 1, 1, 2, 0, 253, 255, 0, 0, 0, 2, 0, 1]⟩ := by
  rw [Png.compress, Png.storeFrom]
  rfl

theorem decode_cutPaletteFile : Png.decode cutPaletteFile = .error .panic := by
  have collected : (Png.Parts.collect? cutPaletteFile).map (fun (parts, compressed) =>
      (parts.hasCutPalette, parts.header, compressed.bytes.data, compressed.stops,
        compressed.ending)) =
      some (true, ⟨1, 1, 8, .indexed, false⟩, (Png.compress ⟨#[0, 0]⟩).data, #[13], .other) := by
    rw [compress_two_zeros]
    decide +kernel
  obtain ⟨⟨parts, ⟨bytes, stops, ending⟩⟩, found, same⟩ := Option.map_eq_some_iff.1 collected
  simp only [Prod.mk.injEq] at same
  obtain ⟨cut, header, content, rfl, rfl⟩ := same
  obtain rfl : bytes = Png.compress ⟨#[0, 0]⟩ := ByteArray.ext content
  -- Expanding does not reduce by itself, so the row comes from the general round trip.
  have expanded : Png.decompress? 2 2 ⟨Png.compress ⟨#[0, 0]⟩, [13].toArray, .other⟩ =
      some ⟨#[0, 0]⟩ :=
    Png.decompress?_compress ⟨#[0, 0]⟩ (by rw [compress_two_zeros]; rfl)
  have first_row : Png.hasFirstRow ⟨1, 1, 8, .indexed, false⟩
      ⟨Png.compress ⟨#[0, 0]⟩, #[13], .other⟩ = true := by
    show ((Png.decompress? 2 2 _).bind _).isSome = true
    rw [expanded]
    decide +kernel
  rw [Png.decode, found]
  simp only [cut, header, first_row]
  rfl

/-- A directory whose only mask is this file. -/
def cutPaletteFolder : FileTree := FileTree.folder "m" [("fin.png", cutPaletteFile)]

theorem masks_cutPaletteFolder :
    cutPaletteFolder.view.masks Png.codec "/m" = .error .panic := by
  have leads : cutPaletteFolder.LeadsTo "/m" ["m"] := FileTree.leadsTo_folder_m _
  have listed : cutPaletteFolder.view.list "/m" = some [⟨"fin.png", true⟩] :=
    FileTree.list_folder leads (by decide +kernel)
  have read : cutPaletteFolder.read (joinPath "/m" "fin.png") = some cutPaletteFile :=
    FileTree.read_folder leads ⟨by decide, by decide⟩ (by decide +kernel)
  have layer : DirEntry.layer? ⟨"fin.png", true⟩ = some .fin := by decide +kernel
  have decoded : Png.codec.decodeRead (cutPaletteFolder.view.read (joinPath "/m" "fin.png")) =
      .error .panic := by
    rw [FileTree.read_view, read, ImageCodec.decodeRead, Png.decode_codec, decode_cutPaletteFile]
  rw [FileView.masks_of_singleton listed, FileView.takeIn, layer]
  show (cutPaletteFolder.view.mask Png.codec (joinPath "/m" "fin.png")).map _ = _
  rw [FileView.mask, decoded]
  rfl

/-- Masks that cannot be loaded do not always exit with 10: where the decoder panics, so does the
    program. -/
theorem not_forall_exitCode_eq_ten :
    ¬ ∀ (tree : FileTree) (clock : StateM FileTree Nat) (words : List String) (settings : Settings)
      (order : RenderOrder) (config : Config) (halt : Halt),
      ofLine words = .ok (settings, .render order) →
      settings.configuration? tree.view = some config →
      tree.view.masks Png.codec config.assetDir = .error halt →
      (runOn (treeHost clock) tree words).1.exitCode = 10 := by
  intro claimed
  let settings : Settings := ⟨false, none, some "/m"⟩
  let order : RenderOrder := ⟨"7", none, false, "koi.png"⟩
  have known : settings.configuration? cutPaletteFolder.view =
    some { Config.default with assetDir := "/m" } := rfl
  have unmade : settings.engine cutPaletteFolder.view Png.codec = .error 101 := by
    rw [Settings.engine, known]
    simp only [masks_cutPaletteFolder]
  have code : renderCode (treeHost (pure 0)) cutPaletteFolder settings order = 101 :=
    renderCode_of_engine_error unmade
  have line : ofLine ["render", "7", "--assets", "/m"] = .ok (settings, .render order) := rfl
  have exit := claimed cutPaletteFolder (pure 0) _ settings order _ _ line known
    masks_cutPaletteFolder
  have ends :=
    ends_render (treeHost (pure 0)) FileTree.isPassive_access cutPaletteFolder settings order
  rw [runOn_of_line line, exitCode_ofResult, ends.code_eq, code] at exit
  exact absurd exit (by decide)

end Command

end Koi
