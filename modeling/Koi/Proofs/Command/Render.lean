import Koi.Proofs.Command.Settings

/-!
# Pictures and their files

With an engine, an order for a picture goes through three more stages: the token, the size and the
file. The first one that fails decides about the exit code, and only the last one touches a file.

* `RenderOrder.exitCode`: the stages.
* `RenderOrder.Fulfilled`: the file of an order shows the picture.
* `RenderOrder.ends_deliver`: an order is fulfilled, or its file cannot be written, or it leaves the
  world as it is.
-/

namespace Koi

/-- Whether the file of an image can be written at a path. -/
def Host.canSave {σ : Type} (host : Host (StateM σ)) (world : σ) (path : String) (image : Image) :
    Bool :=
  (host.codec.encode? image).any fun file => ((host.files.write path file).run world).1

/-! ## Pictures -/

namespace RenderOrder

variable {order : RenderOrder} {engine : Engine} {cache : Cache}

/-- What the picture of an order is painted over. -/
def background (order : RenderOrder) (attributes : Attributes) : Option Color :=
  if order.thumbnail then some attributes.primaryColor else none

/-- Painting the picture of an order. -/
def painting (order : RenderOrder) (engine : Engine) : CacheM Image :=
  if order.thumbnail then engine.thumbnail order.token (order.edge engine.config)
  else engine.picture order.token (order.edge engine.config)

theorem painting_eq_paintToken (order : RenderOrder) (engine : Engine) : order.painting engine =
    engine.paintToken order.background order.token (order.edge engine.config) := by
  unfold painting background
  cases order.thumbnail with
  | true => exact engine.thumbnail_eq_paintToken _ _
  | false => exact engine.picture_eq_paintToken _ _

/-- The picture does not depend on what the engine has done before. -/
theorem painting_eq_draw (reached : engine.Reachable cache) :
    ((order.painting engine).runOn cache).1 =
      Command.draw engine order (order.edge engine.config) := by
  -- `Command.draw` works on an empty cache: both caches are coherent, so both show the same.
  show _ = ((order.painting engine).runOn Cache.empty).1
  have fresh := Cache.Coherent.empty engine.store
  rw [painting_eq_paintToken]
  cases parsed : TokenId.parse order.token with
  | error e => rw [Engine.runOn_paintToken_of_error parsed, Engine.runOn_paintToken_of_error parsed]
  | ok id =>
    rw [Engine.runOn_paintToken_of_ok parsed, Engine.runOn_paintToken_of_ok parsed,
      reached.coherent.runOn_render, fresh.runOn_render]

theorem tokenOutcome_draw (order : RenderOrder) (engine : Engine) :
    TokenOutcome order.token (order.edge engine.config)
      (Command.draw engine order (order.edge engine.config)) := by
  rw [← painting_eq_draw .empty, painting_eq_paintToken]
  exact Engine.tokenOutcome_paintToken (Cache.Coherent.empty engine.store) _ _ _

/-! ## Stages -/

/-- The picture of an order, if there is one. -/
def picture? (order : RenderOrder) (engine : Engine) : Option Image :=
  ((order.painting engine).runOn Cache.empty).1.toOption

theorem picture?_of_draw {image : Image}
    (drawn : Command.draw engine order (order.edge engine.config) = .ok image) :
    order.picture? engine = some image := by
  rw [picture?, painting_eq_draw .empty, drawn]
  rfl

section

variable {σ : Type} {host : Host (StateM σ)} {world : σ}

/-- The exit code of an order with an engine: the token comes first, then the size and the file. -/
def exitCode (order : RenderOrder) (engine : Engine) (host : Host (StateM σ)) (world : σ) : UInt8 :=
  match TokenId.parse order.token with
  | .error _ => 12
  | .ok _ =>
    if ¬ ValidSize (order.edge engine.config) then 10
    else if (order.picture? engine).any (host.canSave world order.output) then 0
    else 11

/-- The file of the picture that the order asks for has been written, and nothing else has. It is
    the same picture whatever the engine has done before. If the codec is lossless and files keep
    what is written, the output file shows it. -/
def Fulfilled (order : RenderOrder) (engine : Engine) (host : Host (StateM σ)) (world after : σ) :
    Prop :=
  ∃ image file,
    (∀ cache, engine.Reachable cache → ((order.painting engine).runOn cache).1 = .ok image) ∧
    host.codec.encode? image = some file ∧
    (host.files.write order.output file).run world = (true, after) ∧
    (host.codec.IsLossless image → host.files.ReadsBack order.output →
      host.codec.decodeRead ((host.files.view after).read order.output) = .ok image)

/-- What is done for an order when its engine is there. -/
def deliver (order : RenderOrder) (host : Host (StateM σ)) (config : Config) (engine : Engine) :
    ExceptT Halt (StateM σ) Report := do
  let picture ← Command.draw engine order (order.edge config)
  host.codec.save host.files order.output picture
  return .rendered order (order.edge config)

theorem perform_deliver_of_draw_error {e : Error}
    (h : Command.draw engine order (order.edge engine.config) = .error e) :
    perform world (order.deliver host engine.config engine) = (.error (.failure e), world) := by
  rw [deliver, h]
  rfl

theorem perform_deliver_of_draw_ok {image : Image}
    (h : Command.draw engine order (order.edge engine.config) = .ok image) :
    perform world (order.deliver host engine.config engine) = perform world (do
      host.codec.save host.files order.output image
      return .rendered order (order.edge engine.config)) := by
  rw [deliver, h]
  rfl

theorem exitCode_of_parse_error {e : Error} (h : TokenId.parse order.token = .error e) :
    order.exitCode engine host world = 12 := by
  rw [exitCode, h]

theorem exitCode_of_not_validSize {id : TokenId} (h : TokenId.parse order.token = .ok id)
    (valid : ¬ ValidSize (order.edge engine.config)) : order.exitCode engine host world = 10 := by
  simp only [exitCode, h, if_pos valid]

theorem exitCode_of_validSize {id : TokenId} (h : TokenId.parse order.token = .ok id)
    (valid : ValidSize (order.edge engine.config)) : order.exitCode engine host world =
      if (order.picture? engine).any (host.canSave world order.output) then 0 else 11 := by
  simp only [exitCode, h, not_true_eq_false, valid, if_false]

/-- A picture that is there goes to its file. -/
theorem ends_deliver_of_draw_ok {image : Image}
    (drawn : Command.draw engine order (order.edge engine.config) = .ok image) :
    Command.Ends (if host.canSave world order.output image then 0 else 11)
      (order.Fulfilled engine host world) world
      (perform world (order.deliver host engine.config engine)) := by
  rw [perform_deliver_of_draw_ok drawn]
  cases encoded : host.codec.encode? image with
  | none =>
    obtain ⟨left, refused⟩ := perform_save_of_encode?_eq_none host.codec host.files
      order.output encoded world
    rw [Host.canSave, encoded, perform_bind_error refused]
    exact .of_notWritten _
  | some file =>
    have saved := perform_save host.codec host.files order.output encoded world
    rw [Host.canSave, encoded, Option.any_some]
    cases put : (host.files.write order.output file).run world with
    | mk written after =>
      rw [put] at saved
      cases written with
      | false =>
        rw [perform_bind_error saved]
        exact .of_notWritten _
      | true =>
        rw [perform_bind_ok saved]
        refine .of_ok ⟨image, file, fun cache reached => (painting_eq_draw reached).trans drawn,
          encoded, put, fun lossless kept => ?_⟩
        obtain ⟨file', encoded', decoded⟩ := lossless
        obtain rfl := Option.some.inj (encoded'.symm.trans encoded)
        rw [kept file' world after put]
        exact decoded

/-- An order with an engine ends with its code. It is fulfilled, or its file cannot be written, or
    it leaves the world as it is. -/
theorem ends_deliver (order : RenderOrder) (engine : Engine) (host : Host (StateM σ)) (world : σ) :
    Command.Ends (order.exitCode engine host world) (order.Fulfilled engine host world) world
      (perform world (order.deliver host engine.config engine)) := by
  have outcome := order.tokenOutcome_draw engine
  cases parsed : TokenId.parse order.token with
  | error e =>
    obtain ⟨fails, reason, rfl⟩ := outcome.unreadable e parsed
    rw [perform_deliver_of_draw_error fails, exitCode_of_parse_error parsed]
    exact .of_halt rfl
  | ok id =>
    by_cases valid : ValidSize (order.edge engine.config)
    -- A picture of a valid size is always there, so that only its file can fail.
    · obtain ⟨image, drawn⟩ := outcome.isOk_iff.2 ⟨⟨id, parsed⟩, valid⟩
      rw [exitCode_of_validSize parsed valid, picture?_of_draw drawn, Option.any_some]
      exact ends_deliver_of_draw_ok drawn
    · have fails := outcome.outOfBounds id parsed valid
      rw [perform_deliver_of_draw_error fails, exitCode_of_not_validSize parsed valid]
      exact .of_halt rfl

end

end RenderOrder

end Koi
