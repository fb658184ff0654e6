import Koi.Proofs.History

/-!
# Layer over layer

At each position, a picture shows what comes of the pixels of its layers when they are laid onto
the canvas one after another. A pixel with alpha 0 changes nothing and one with alpha 255 hides
whatever lies below.

* `Coat`, `Attributes.coats`: the layers of a koi as they are painted.
* `Pixel.stack`: pixels laid over each other; `stack_of_forall_clear` and `stack_append_full`.
* `Store.maskPixel?`, `Store.coatPixels`: the pixels that the layers have at a position.
* `Store.pixel?_picture`: a picture is the stack of these pixels, position by position.
* `Cache.render_layering`: what follows for painting, after every history of a cache.
-/

namespace Koi

/-! ## Pixels over each other -/

namespace Pixel

/-- The pixel of a mask as it is painted: in a color, or as it is. -/
def coated (color : Option Color) (p : Pixel) : Pixel :=
  match color with
  | some color => p.tint color
  | none => p

/-- What is seen of pixels laid onto another one, the last one on top. -/
def stack (back : Pixel) (fronts : List Pixel) : Pixel :=
  fronts.foldl (fun back front => front.onto back) back

theorem alpha_tint (color : Color) (p : Pixel) : (p.tint color).alpha = p.alpha := by
  unfold tint
  split
  · next h => rw [h, clear, alpha_rgba]
  · rw [alpha_rgba]

theorem alpha_coated (color : Option Color) (p : Pixel) : (p.coated color).alpha = p.alpha := by
  cases color with
  | some color => exact alpha_tint color p
  | none => rfl

theorem tint_of_full {p : Pixel} (h : p.alpha = 255) (color : Color) :
    p.tint color = color.opaquePixel := by
  have hne : p.alpha ≠ 0 := by
    rw [h]
    decide
  rw [tint, if_neg hne, h, Color.opaquePixel]

theorem onto_of_clear {front : Pixel} (h : front.alpha = 0) (back : Pixel) :
    front.onto back = back :=
  if_pos h

theorem onto_of_full {front : Pixel} (h : front.alpha = 255) (back : Pixel) :
    front.onto back = front := by
  have hne : front.alpha ≠ 0 := by
    rw [h]
    decide
  rw [onto, if_neg hne, if_pos h]

theorem stack_append (back : Pixel) (fronts more : List Pixel) :
    stack back (fronts ++ more) = stack (stack back fronts) more :=
  List.foldl_append

/-- Clear pixels change nothing. -/
theorem stack_of_forall_clear {fronts : List Pixel} (h : ∀ front ∈ fronts, front.alpha = 0)
    (back : Pixel) : stack back fronts = back := by
  induction fronts generalizing back with
  | nil => rfl
  | cons front rest ih =>
    obtain ⟨hf, hr⟩ := List.forall_mem_cons.1 h
    have hs : stack back (front :: rest) = stack (front.onto back) rest := rfl
    rw [hs, onto_of_clear hf, ih hr]

/-- An opaque pixel hides the back and all pixels laid onto it before. -/
theorem stack_append_full {top : Pixel} (h : top.alpha = 255) (back : Pixel)
    (early late : List Pixel) : stack back (early ++ top :: late) = stack top late := by
  have hs : stack (stack back early) (top :: late) = stack (top.onto (stack back early)) late := rfl
  rw [stack_append, hs, onto_of_full h]

end Pixel

/-! ## Images over each other -/

namespace Image

theorem pixel?_filled {width height x y : Nat} (hx : x < width) (hy : y < height) (p : Pixel) :
    (filled width height p).pixel? x y = some p := by
  simp [filled, pixel?, hx, index_lt hx hy]

theorem exists_pixel?_resize (image : Image) {size x y : Nat} (hx : x < size) (hy : y < size) :
    ∃ p, (image.resize size).pixel? x y = some p := by
  obtain ⟨hw, hh⟩ := image.size_resize size
  rw [← Option.ne_none_iff_exists', Ne, pixel?_eq_none_iff, hw, hh, not_not]
  exact ⟨hx, hy⟩

/-- A mask as it is painted: in a color, or as it is. -/
def coated (color : Option Color) (mask : Image) : Image :=
  match color with
  | some color => mask.tint color
  | none => mask

theorem pixel?_coated (color : Option Color) (mask : Image) (x y : Nat) :
    (mask.coated color).pixel? x y = (mask.pixel? x y).map (Pixel.coated color) := by
  cases color with
  | some color => exact mask.pixel?_map (Pixel.tint color) x y
  | none =>
    have hid : Pixel.coated none = id := rfl
    rw [hid, Option.map_id]
    rfl

/-- The layers over a canvas show the stack of their pixels. -/
theorem pixel?_foldl_overlay (layers : List Image) (canvas : Image) (x y : Nat) :
    (layers.foldl overlay canvas).pixel? x y = (canvas.pixel? x y).map fun back =>
      back.stack (layers.filterMap fun layer => layer.pixel? x y) := by
  induction layers generalizing canvas with
  | nil => simp [Pixel.stack]
  | cons layer rest ih =>
    rw [List.foldl_cons, ih, pixel?_overlay, Option.map_map, List.filterMap_cons]
    cases layer.pixel? x y <;> rfl

end Image

/-! ## Coats -/

/-- A layer as it is painted: in a color, or with its own colors. -/
structure Coat where
  name : LayerName
  color : Option Color
  deriving DecidableEq, Repr

/-- The coat of a colored layer. -/
def Layer.coat (layer : Layer) : Coat := ⟨layer.name, some layer.color⟩

/-- The coats of a koi, in the order in which they are painted: body and fins, the patterns of
    body, head and fins, and the outline, which alone keeps its own colors. -/
def Attributes.coats (a : Attributes) : List Coat :=
  [⟨.body, some a.bodyColor⟩, ⟨.fin, some a.finColor⟩] ++
    (a.bodyLayers ++ a.headLayers ++ a.finLayers).map Layer.coat ++ [⟨.outline, none⟩]

theorem Attributes.coats_eq (a : Attributes) :
    a.coats = a.paintedLayers.map Layer.coat ++ [⟨.outline, none⟩] := by
  rw [coats, paintedLayers, patterns_eq]
  rfl

theorem Attributes.map_name_coats (a : Attributes) : a.coats.map Coat.name = a.layerNames := by
  rw [coats_eq, layerNames, List.map_append, List.map_map]
  rfl

namespace Store

/-- The scaled mask of a coat, as it is painted. -/
def coatImage? (store : Store) (size : UInt32) (coat : Coat) : Option Image :=
  (store.scaled? ⟨size, coat.name⟩).map (Image.coated coat.color)

/-- The pixel of a layer's scaled mask at a position. -/
def maskPixel? (store : Store) (size : UInt32) (x y : Nat) (name : LayerName) : Option Pixel :=
  (store.scaled? ⟨size, name⟩).bind fun mask => mask.pixel? x y

/-- The pixel that a coat puts onto a position. -/
def coatPixel? (store : Store) (size : UInt32) (x y : Nat) (coat : Coat) : Option Pixel :=
  (store.maskPixel? size x y coat.name).map (Pixel.coated coat.color)

/-- The pixels that coats put onto a position. -/
def coatPixels (store : Store) (size : UInt32) (x y : Nat) (coats : List Coat) : List Pixel :=
  coats.filterMap (store.coatPixel? size x y)

variable {store : Store} {a : Attributes} {background : Option Color} {size : UInt32}
  {image : Image} {x y : Nat}

theorem bind_coatImage? (store : Store) (size : UInt32) (x y : Nat) (coat : Coat) :
    (store.coatImage? size coat).bind (fun layer => layer.pixel? x y) =
      store.coatPixel? size x y coat := by
  unfold coatImage? coatPixel? maskPixel?
  cases store.scaled? ⟨size, coat.name⟩ with
  | none => rfl
  | some mask => exact mask.pixel?_coated coat.color x y

theorem filterMap_coatImage? {layers : List Layer} {masks : List (Color × Image)}
    (h : layers.mapM (store.colored size) = .ok masks) :
    (layers.map Layer.coat).filterMap (store.coatImage? size) = masks.map tintColored := by
  induction layers generalizing masks with
  | nil =>
    obtain rfl := Except.ok.inj h
    rfl
  | cons layer rest ih =>
    rw [List.mapM_cons] at h
    cases hg : store.get layer.name with
    | error e =>
      rw [colored, hg] at h
      cases h
    | ok mask =>
      rw [colored, hg] at h
      cases hr : rest.mapM (store.colored size) with
      | error e =>
        rw [hr] at h
        cases h
      | ok others =>
        rw [hr] at h
        obtain rfl := Except.ok.inj h
        have hi : store.coatImage? size layer.coat =
            some ((mask.resize size.toNat).tint layer.color) := by
          rw [coatImage?, scaled?, Layer.coat, (store.get_eq_ok_iff layer.name mask).1 hg]
          rfl
        rw [List.map_cons, List.filterMap_cons_some hi, ih hr]
        rfl

/-- A picture is its coats laid over the canvas. -/
theorem picture_eq_foldl (h : store.picture a background size = .ok image) :
    ValidSize size ∧ (∀ name ∈ a.layerNames, store.contains name = true) ∧
      image = (a.coats.filterMap (store.coatImage? size)).foldl Image.overlay
        (canvas background size.toNat) := by
  by_cases valid : ValidSize size
  · cases hf : a.layerNames.find? fun name => !store.contains name with
    | some missing =>
      rw [picture_eq_error valid hf] at h
      cases h
    | none =>
      have known : ∀ name ∈ a.layerNames, store.contains name = true :=
        fun name hn => by simpa using List.find?_eq_none.1 hf name hn
      refine ⟨valid, known, ?_⟩
      obtain ⟨masks, hm⟩ : ∃ masks, a.paintedLayers.mapM (store.colored size) = .ok masks :=
        mapM_colored_ok size fun layer hl => known layer.name
          (List.mem_append_left _ (List.mem_map_of_mem hl))
      obtain ⟨outline, ho, hg⟩ := get_of_contains (known .outline (by simp [Attributes.layerNames]))
      have hi : store.coatImage? size ⟨.outline, none⟩ = some (outline.resize size.toNat) := by
        rw [coatImage?, scaled?, hg]
        rfl
      rw [picture_eq valid, hm, ho] at h
      rw [← Except.ok.inj h, foldl_stamp, a.coats_eq, List.filterMap_append,
        filterMap_coatImage? hm, List.filterMap_cons_some hi, List.foldl_append]
      rfl
  · rw [picture_of_not_valid store a background valid] at h
    cases h

/-- The canvas at a position: nothing, or the background. -/
theorem pixel?_canvas (background : Option Color) {size : Nat} (hx : x < size) (hy : y < size) :
    (canvas background size).pixel? x y =
      some ((background.map Color.opaquePixel).getD .clear) := by
  cases background with
  | none => exact Image.pixel?_filled hx hy .clear
  | some color => exact Image.pixel?_filled hx hy color.opaquePixel

theorem size_picture (h : store.picture a background size = .ok image) :
    image.width = size.toNat ∧ image.height = size.toNat := by
  obtain ⟨-, -, rfl⟩ := picture_eq_foldl h
  have hs := Image.size_foldl_overlay (a.coats.filterMap (store.coatImage? size))
    (canvas background size.toNat)
  rwa [width_canvas, height_canvas] at hs

/-- A picture shows, at each position, the stack of the pixels that its coats have there. -/
theorem pixel?_picture (h : store.picture a background size = .ok image) (hx : x < size.toNat)
    (hy : y < size.toNat) : image.pixel? x y =
      some (((background.map Color.opaquePixel).getD .clear).stack
        (store.coatPixels size x y a.coats)) := by
  obtain ⟨-, -, rfl⟩ := picture_eq_foldl h
  have hp : (a.coats.filterMap (store.coatImage? size)).filterMap (fun layer => layer.pixel? x y) =
      store.coatPixels size x y a.coats := by
    rw [List.filterMap_filterMap, coatPixels]
    congr 1
    funext coat
    exact bind_coatImage? store size x y coat
  rw [Image.pixel?_foldl_overlay, pixel?_canvas background hx hy, hp, Option.map_some]

theorem exists_maskPixel? {name : LayerName} (known : store.contains name = true)
    (hx : x < size.toNat) (hy : y < size.toNat) :
    ∃ p, store.maskPixel? size x y name = some p := by
  obtain ⟨mask, -, hm⟩ := get_of_contains known
  rw [maskPixel?, scaled?, hm]
  exact mask.exists_pixel?_resize hx hy

theorem mem_coatPixels {coats : List Coat} {p : Pixel} (h : p ∈ store.coatPixels size x y coats) :
    ∃ coat ∈ coats, ∃ q, store.maskPixel? size x y coat.name = some q ∧
      p = q.coated coat.color := by
  obtain ⟨coat, hc, hp⟩ := List.mem_filterMap.1 h
  obtain ⟨q, hq, rfl⟩ := Option.map_eq_some_iff.1 hp
  exact ⟨coat, hc, q, hq, rfl⟩

theorem coatPixels_append_cons {early late : List Coat} {top : Coat} {p : Pixel}
    (h : store.maskPixel? size x y top.name = some p) :
    store.coatPixels size x y (early ++ top :: late) =
      store.coatPixels size x y early ++ p.coated top.color ::
        store.coatPixels size x y late := by
  have hp : store.coatPixel? size x y top = some (p.coated top.color) := by
    rw [coatPixel?, h, Option.map_some]
  rw [coatPixels, List.filterMap_append, List.filterMap_cons_some hp]
  rfl

theorem coatPixels_congr {other : Store} {coats : List Coat} (h : ∀ coat ∈ coats,
      other.maskPixel? size x y coat.name = store.maskPixel? size x y coat.name) :
    other.coatPixels size x y coats = store.coatPixels size x y coats := by
  apply List.filterMap_congr
  intro coat hc
  rw [coatPixel?, coatPixel?, h coat hc]

/-- At the position of an opaque pixel of a mask, a picture shows this pixel and what later coats
    lay onto it. -/
theorem pixel?_picture_of_full (h : store.picture a background size = .ok image)
    (hx : x < size.toNat) (hy : y < size.toNat) {early late : List Coat} {top : Coat}
    (hc : a.coats = early ++ top :: late) {p : Pixel}
    (hp : store.maskPixel? size x y top.name = some p) (full : p.alpha = 255) :
    image.pixel? x y =
      some ((p.coated top.color).stack (store.coatPixels size x y late)) := by
  have ht : (p.coated top.color).alpha = 255 := by rw [Pixel.alpha_coated, full]
  rw [pixel?_picture h hx hy, hc, coatPixels_append_cons hp, Pixel.stack_append_full ht]

theorem stack_coatPixels_of_clear {coats : List Coat} (h : ∀ coat ∈ coats, ∀ q,
      store.maskPixel? size x y coat.name = some q → q.alpha = 0) (back : Pixel) :
    back.stack (store.coatPixels size x y coats) = back := by
  apply Pixel.stack_of_forall_clear
  intro front hf
  obtain ⟨coat, hc, q, hq, rfl⟩ := mem_coatPixels hf
  rw [Pixel.alpha_coated, h coat hc q hq]

end Store

/-! ## Painting -/

namespace Cache

theorem render_after_eq_ok_iff (store : Store) (history : List Request) (a : Attributes)
    (background : Option Color) (size : UInt32) (image : Image) :
    ((render store a background size).runOn (after store history)).1 = .ok image ↔
      store.picture a background size = .ok image := by
  rw [(coherent_after store history).runOn_render]

/-- What a successful painting shows at a position, after every history of requests. Each coat has
    a pixel of its scaled mask there. If all of them are clear, the canvas remains: nothing, or the
    background. If one is opaque and all later ones are clear, its color is seen, or its own pixel
    if it is the outline's. From an opaque pixel on, neither the canvas nor earlier coats have any
    influence: two paintings whose coats and mask pixels agree from there on show the same, in
    particular those of one koi over any two backgrounds. -/
theorem render_layering (store : Store) (history : List Request) (a : Attributes)
    (background : Option Color) (size : UInt32) (image : Image)
    (h : ((render store a background size).runOn (after store history)).1 = .ok image) (x y : Nat)
    (hx : x < image.width) (hy : y < image.height) :
    (∀ coat ∈ a.coats, ∃ p, store.maskPixel? size x y coat.name = some p) ∧
    ((∀ coat ∈ a.coats, ∀ p, store.maskPixel? size x y coat.name = some p → p.alpha = 0) →
      image.pixel? x y = some (match background with
        | none => .rgba 0 0 0 0
        | some color => .rgba color.red color.green color.blue 255)) ∧
    (∀ early top late p, a.coats = early ++ top :: late →
      store.maskPixel? size x y top.name = some p → p.alpha = 255 →
      (∀ coat ∈ late, ∀ q, store.maskPixel? size x y coat.name = some q → q.alpha = 0) →
      image.pixel? x y = some (match top.color with
        | some color => .rgba color.red color.green color.blue 255
        | none => p)) ∧
    (∀ (otherStore : Store) (otherHistory : List Request) (b : Attributes)
      (otherBackground : Option Color) (other : Image),
      ((render otherStore b otherBackground size).runOn (after otherStore otherHistory)).1 =
        .ok other →
      ∀ early earlier top late p, a.coats = early ++ top :: late →
        b.coats = earlier ++ top :: late →
        (∀ coat ∈ top :: late, otherStore.maskPixel? size x y coat.name =
          store.maskPixel? size x y coat.name) →
        store.maskPixel? size x y top.name = some p → p.alpha = 255 →
        other.pixel? x y = image.pixel? x y) ∧
    (∀ (otherHistory : List Request) (otherBackground : Option Color) (other : Image),
      ((render store a otherBackground size).runOn (after store otherHistory)).1 = .ok other →
      (∃ coat ∈ a.coats, ∃ p, store.maskPixel? size x y coat.name = some p ∧ p.alpha = 255) →
      other.pixel? x y = image.pixel? x y) := by
  have hp := (render_after_eq_ok_iff store history a background size image).1 h
  obtain ⟨hw, hh⟩ := Store.size_picture hp
  rw [hw] at hx
  rw [hh] at hy
  refine ⟨?_, ?_, ?_, ?_, ?_⟩
  · intro coat hc
    have hn : coat.name ∈ a.layerNames := by
      rw [← a.map_name_coats]
      exact List.mem_map_of_mem hc
    exact Store.exists_maskPixel? ((Store.picture_eq_foldl hp).2.1 coat.name hn) hx hy
  · intro hclear
    rw [Store.pixel?_picture hp hx hy, Store.stack_coatPixels_of_clear hclear]
    cases background <;> rfl
  · intro early top late p hc htop full hclear
    rw [Store.pixel?_picture_of_full hp hx hy hc htop full,
      Store.stack_coatPixels_of_clear hclear]
    cases top.color with
    | none => rfl
    | some color => rw [Pixel.coated, Pixel.tint_of_full full, Color.opaquePixel]
  · intro otherStore otherHistory b otherBackground other ho early earlier top late p hc hb same
      htop full
    have hp' := (render_after_eq_ok_iff otherStore otherHistory b otherBackground size other).1 ho
    obtain ⟨htop', hlate⟩ := List.forall_mem_cons.1 same
    rw [Store.pixel?_picture_of_full hp hx hy hc htop full,
      Store.pixel?_picture_of_full hp' hx hy hb (htop'.trans htop) full,
      Store.coatPixels_congr hlate]
  · rintro otherHistory otherBackground other ho ⟨top, hm, p, htop, full⟩
    have hp' := (render_after_eq_ok_iff store otherHistory a otherBackground size other).1 ho
    obtain ⟨early, late, hc⟩ := List.append_of_mem hm
    rw [Store.pixel?_picture_of_full hp hx hy hc htop full,
      Store.pixel?_picture_of_full hp' hx hy hc htop full]

/-- A koi of one pixel, whose body is painted a second time over a pattern: the later paint is seen,
    over any background. -/
theorem render_layering_one_pixel :
    ∃ (store : Store) (history : List Request) (a : Attributes) (image other : Image),
      ((render store a none 1).runOn (after store history)).1 = .ok image ∧
      ((render store a (some ⟨9, 9, 9⟩) 1).runOn (after store history)).1 = .ok other ∧
      image.pixel? 0 0 = some (.rgba 200 20 20 255) ∧ other.pixel? 0 0 = image.pixel? 0 0 := by
  let store := Store.empty.insert .body (.pair (.rgba 0 0 0 255) (.rgba 0 0 250 255))
    |>.insert .fin (Image.filled 1 1 .clear)
    |>.insert (.pattern .head 6) (Image.filled 1 1 (.rgba 0 0 0 255))
    |>.insert .outline (Image.filled 1 1 (.rgba 7 7 7 0))
  let a : Attributes :=
    { variety := .kohaku
      bodyLayers := [⟨.pattern .head 6, ⟨30, 30, 30⟩⟩, ⟨.body, ⟨200, 20, 20⟩⟩]
      headLayers := []
      finLayers := [⟨.fin, ⟨0, 0, 0⟩⟩]
      bodyColor := ⟨230, 230, 230⟩
      finColor := ⟨215, 215, 215⟩
      primaryColor := ⟨200, 20, 20⟩ }
  let history : List Request := [.fetch .body 1, .render a none 0]
  let early : List Coat := [⟨.body, some ⟨230, 230, 230⟩⟩, ⟨.fin, some ⟨215, 215, 215⟩⟩,
    ⟨.pattern .head 6, some ⟨30, 30, 30⟩⟩]
  let top : Coat := ⟨.body, some ⟨200, 20, 20⟩⟩
  let late : List Coat := [⟨.fin, some ⟨0, 0, 0⟩⟩, ⟨.outline, none⟩]
  have known : ∀ name ∈ a.layerNames, store.contains name = true := by decide
  obtain ⟨image, hi, hw, hh⟩ := Store.picture_eq_ok (by decide : ValidSize 1) known none
  obtain ⟨other, ho, -⟩ := Store.picture_eq_ok (by decide : ValidSize 1) known (some ⟨9, 9, 9⟩)
  have hi := (render_after_eq_ok_iff store history a none 1 image).2 hi
  have ho := (render_after_eq_ok_iff store history a (some ⟨9, 9, 9⟩) 1 other).2 ho
  have hx : 0 < image.width := by
    rw [hw]
    decide
  have hy : 0 < image.height := by
    rw [hh]
    decide
  have hc : a.coats = early ++ top :: late := rfl
  have hp : store.maskPixel? 1 0 0 .body = some (.rgba 0 0 125 255) := by decide +kernel
  have hclear : ∀ coat ∈ late, ∀ q,
      store.maskPixel? 1 0 0 coat.name = some q → q.alpha = 0 := by decide
  obtain ⟨-, -, seen, -, agree⟩ := render_layering store history a none 1 image hi 0 0 hx hy
  refine ⟨store, history, a, image, other, hi, ho, ?_, ?_⟩
  · exact seen early top late _ hc hp (by decide) hclear
  · exact agree history _ other ho ⟨top, by rw [hc]; simp, _, hp, by decide⟩

end Cache

end Koi
