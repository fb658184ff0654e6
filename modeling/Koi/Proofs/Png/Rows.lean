import Koi.Png
import Koi.Proofs.Painting
import Koi.Proofs.Png.Bytes

/-!
# Rows without a filter

The rows of an image, each behind the byte for no filter, are read back as they were written, and
their bytes are the channels of the pixels.

* `bytesOf_scanlines`: the written rows.
* `rowsFrom?_of_standsAt`: reading rows without a filter.
* `assemble?_scanlines`: an image is put together again from its rows.
-/

namespace Koi.Png

/-! ## Writing rows -/

/-- The bytes of a pixel. -/
def pixelBytes (p : Pixel) : List UInt8 := [p.red, p.green, p.blue, p.alpha]

/-- The pixel with number `i` of an image. -/
def nthPixel (image : Image) (i : Nat) : Pixel := image.pixels.getD i .clear

/-- The bytes of row `y`. -/
def rowOf (image : Image) (y : Nat) : List UInt8 :=
  (List.range image.width).flatMap fun x => pixelBytes (nthPixel image (y * image.width + x))

@[simp] theorem bytesOf_appendPixel (bytes : ByteArray) (p : Pixel) :
    bytesOf (appendPixel bytes p) = bytesOf bytes ++ pixelBytes p := by
  simp [appendPixel, pixelBytes]

theorem length_flatMap_pixelBytes (f : Nat → Pixel) (n : Nat) :
    ((List.range n).flatMap fun x => pixelBytes (f x)).length = 4 * n := by
  simp [pixelBytes, List.length_flatMap, Nat.mul_comm]

theorem length_rowOf (image : Image) (y : Nat) : (rowOf image y).length = 4 * image.width :=
  length_flatMap_pixelBytes _ _

/-- The pixels one after another, with a byte in front of every row. -/
theorem bytesOf_scanlines_eq_flatMap (image : Image) : bytesOf (scanlines image) =
    (List.range image.pixels.size).flatMap fun i =>
      (if i % image.width = 0 then [0] else []) ++ pixelBytes (nthPixel image i) := by
  have first (n : Nat) (hn : n ≤ image.pixels.size) :
      bytesOf (Nat.fold n (fun i h bytes =>
        let bytes := if i % image.width = 0 then bytes.push 0 else bytes
        appendPixel bytes image.pixels[i]) .empty) =
      (List.range n).flatMap fun i =>
        (if i % image.width = 0 then [0] else []) ++ pixelBytes (nthPixel image i) := by
    induction n with
    | zero => simp
    | succ n ih =>
      rw [Nat.fold_succ, bytesOf_appendPixel, List.range_succ, List.flatMap_append,
        ← ih (Nat.le_of_succ_le hn)]
      have here : nthPixel image n = image.pixels[n] := by simp [nthPixel, Nat.lt_of_succ_le hn]
      rw [List.flatMap_singleton, here]
      split <;> simp
  exact first _ (Nat.le_refl _)

/-- Of the pixels from the beginning of a row on, only the first has a byte in front of it. -/
theorem flatMap_range_row (f : Nat → List UInt8) {width : Nat} (positive : 0 < width) (y : Nat) :
    ((List.range width).flatMap fun x =>
      (if (y * width + x) % width = 0 then [0] else []) ++ f (y * width + x)) =
        0 :: (List.range width).flatMap fun x => f (y * width + x) := by
  obtain ⟨w, rfl⟩ := Nat.exists_eq_succ_of_ne_zero (Nat.pos_iff_ne_zero.1 positive)
  have later {x : Nat} (hx : x < w) : (y * (w + 1) + (x + 1)) % (w + 1) ≠ 0 := by
    rw [Nat.mul_add_mod_self_right, Nat.mod_eq_of_lt (by omega)]
    omega
  rw [Nat.succ_eq_add_one, List.range_succ_eq_map, List.flatMap_cons, List.flatMap_cons,
    List.flatMap_map, List.flatMap_map, Nat.add_zero, Nat.mul_mod_left, if_pos rfl,
    List.cons_append, List.nil_append, List.cons_append]
  congr 2
  refine List.flatMap_congr fun x hx => ?_
  rw [if_neg (later (List.mem_range.1 hx)), List.nil_append]

/-- The rows of an image, each behind the byte for no filter. -/
theorem bytesOf_scanlines (image : Image) (nonempty : image.isEmpty = false) :
    bytesOf (scanlines image) = (List.range image.height).flatMap fun y => 0 :: rowOf image y := by
  have positive : 0 < image.width := by
    simp only [Image.isEmpty, Bool.or_eq_false_iff, decide_eq_false_iff_not] at nonempty
    omega
  rw [bytesOf_scanlines_eq_flatMap, image.size_pixels, Nat.mul_comm]
  induction image.height with
  | zero => simp
  | succ n ih =>
    rw [Nat.succ_mul, List.range_add, List.flatMap_append, ih, List.range_succ,
      List.flatMap_append, List.flatMap_singleton, List.flatMap_map,
      flatMap_range_row (fun i => pixelBytes (nthPixel image i)) positive, rowOf]

/-! ## Reading rows -/

theorem rowsFrom?_of_standsAt {h : Header} {data : ByteArray} {rows : List ByteArray}
    (size : ∀ row ∈ rows, row.size = h.rowBytes) {start : Nat} (above : ByteArray)
    (stands : StandsAt data start (rows.flatMap fun row => 0 :: bytesOf row)) :
    rowsFrom? h data rows.length start above = some rows := by
  induction rows generalizing start above with
  | nil => rfl
  | cons row rows ih =>
    obtain ⟨size_row, size⟩ := List.forall_mem_cons.1 size
    rw [List.flatMap_cons] at stands
    obtain ⟨first, rest⟩ := standsAt_append_iff.1 stands
    have enough := first.length_le (by simp)
    have row_eq := bytesOf_injective first.tail.extract
    rw [List.length_cons, length_bytesOf, size_row] at enough rest
    rw [length_bytesOf, size_row] at row_eq
    rw [Nat.add_comm h.rowBytes 1, ← Nat.add_assoc] at rest
    have again := ih size row rest
    have filter : Filter.ofCode? (byteAt data start).toNat = some .none := by
      rw [first.byteAt]
      rfl
    rw [List.length_cons, rowsFrom?, if_neg (by omega), filter]
    show ((rowsFrom? h data rows.length (start + 1 + h.rowBytes)
      (data.extract (start + 1) (start + 1 + h.rowBytes))).bind fun rest =>
        some (data.extract (start + 1) (start + 1 + h.rowBytes) :: rest)) = _
    rw [row_eq, again]
    rfl

/-! ## The pixels of an image -/

/-- The header of an image whose samples are bytes. -/
def rgbaHeader (width height : Nat) : Header := ⟨width, height, 8, .rgba, false⟩

theorem rowBytes_rgbaHeader (width height : Nat) :
    (rgbaHeader width height).rowBytes = 4 * width := by
  show (width * 32 + 7) / 8 = 4 * width
  omega

theorem standsAt_rowOf (image : Image) {x : Nat} (hx : x < image.width) (y : Nat) :
    StandsAt ⟨(rowOf image y).toArray⟩ (4 * x)
      (pixelBytes (nthPixel image (y * image.width + x))) := by
  obtain ⟨k, hk⟩ := Nat.exists_eq_add_of_le (Nat.succ_le_of_lt hx)
  have before := length_flatMap_pixelBytes (fun x => nthPixel image (y * image.width + x)) x
  have row : rowOf image y =
      ((List.range x).flatMap fun x => pixelBytes (nthPixel image (y * image.width + x))) ++
        pixelBytes (nthPixel image (y * image.width + x)) ++
          ((List.range k).map (x + 1 + ·)).flatMap fun x =>
            pixelBytes (nthPixel image (y * image.width + x)) := by
    rw [rowOf, hk, Nat.succ_eq_add_one, List.range_add, List.flatMap_append, List.range_succ,
      List.flatMap_append, List.flatMap_singleton]
  rw [← before]
  exact standsAt_of_eq row

theorem pixelAt_rowOf (image : Image) {x : Nat} (hx : x < image.width) (height y : Nat) :
    pixelAt (rgbaHeader image.width height) {} ⟨(rowOf image y).toArray⟩ x =
      nthPixel image (y * image.width + x) := by
  have stands := standsAt_rowOf image hx y
  show Pixel.rgba (byteAt _ (4 * x)) (byteAt _ (4 * x + 1)) (byteAt _ (4 * x + 2))
    (byteAt _ (4 * x + 3)) = _
  rw [stands.byteAt, stands.tail.byteAt, stands.tail.tail.byteAt, stands.tail.tail.tail.byteAt,
    Pixel.rgba_channels]

theorem pixel?_eq_nthPixel (image : Image) {x y : Nat} (hx : x < image.width)
    (hy : y < image.height) :
    image.pixel? x y = some (nthPixel image (y * image.width + x)) := by
  have inside : y * image.width + x < image.pixels.size := by
    rw [image.size_pixels]
    exact Image.index_lt hx hy
  rw [Image.pixel?, if_pos hx, nthPixel, Array.getElem?_eq_getElem inside]
  simp [inside]

theorem header_whole (h : Header) : Pass.whole.header h = h := by
  simp [Pass.header, Pass.whole, Pass.count]

section Whole

variable {image : Image} (nonempty : image.isEmpty = false)
include nonempty

theorem passes_rgbaHeader : (rgbaHeader image.width image.height).passes = [.whole] := by
  simp only [Image.isEmpty, Bool.or_eq_false_iff, decide_eq_false_iff_not] at nonempty
  simp [Header.passes, header_whole, rgbaHeader, nonempty]

theorem size_scanlines : (scanlines image).size = image.height * (1 + 4 * image.width) := by
  rw [← length_bytesOf, bytesOf_scanlines image nonempty, List.length_flatMap]
  simp [length_rowOf, Nat.add_comm]

theorem dataSize_rgbaHeader :
    (rgbaHeader image.width image.height).dataSize = (scanlines image).size := by
  rw [size_scanlines nonempty, Header.dataSize, passes_rgbaHeader nonempty, List.foldl_cons,
    List.foldl_nil, header_whole, Nat.zero_add, Header.rawSize, rowBytes_rgbaHeader]
  rfl

/-- The only pass of the image has its rows. -/
theorem passRows?_scanlines : passRows? (rgbaHeader image.width image.height) (scanlines image)
      (rgbaHeader image.width image.height).passes 0 =
    some [(.whole, ((List.range image.height).map fun y =>
      ByteArray.mk (rowOf image y).toArray).toArray)] := by
  have stands : StandsAt (scanlines image) 0 (((List.range image.height).map fun y =>
      ByteArray.mk (rowOf image y).toArray).flatMap fun row => 0 :: bytesOf row) := by
    apply standsAt_zero_of_eq
    rw [bytesOf_scanlines image nonempty, List.flatMap_map]
    exact (List.append_nil _).symm
  have rows := rowsFrom?_of_standsAt (h := rgbaHeader image.width image.height) ?_ .empty stands
  · rw [List.length_map, List.length_range] at rows
    rw [passes_rgbaHeader nonempty, passRows?]
    simp only [header_whole]
    show ((rowsFrom? _ _ image.height _ _).bind _) = _
    rw [rows]
    rfl
  · intro row hr
    obtain ⟨y, -, rfl⟩ := List.mem_map.1 hr
    rw [rowBytes_rgbaHeader]
    exact length_rowOf image y

/-- An image is put together again from its rows. -/
theorem assemble?_scanlines {compressed : Arrival} (ending : compressed.ending = .other)
    (content : decompress? (rgbaHeader image.width image.height).dataSize
      (rgbaHeader image.width image.height).dataSize compressed = some (scanlines image)) :
    assemble? { header := rgbaHeader image.width image.height } compressed = some image := by
  rw [assemble?]
  simp only [ending, ne_eq, not_true_eq_false, if_false, content, Option.bind_eq_bind,
    Option.bind_some, passRows?_scanlines nonempty, Option.pure_def, Option.some.injEq]
  refine Image.ext_pixel? (by rfl) (by rfl) fun x y => ?_
  rw [Image.pixel?_ofRows]
  by_cases inside : x < image.width ∧ y < image.height
  · have row : rowsAt [(.whole, ((List.range image.height).map fun y =>
        ByteArray.mk (rowOf image y).toArray).toArray)] y =
          [(.whole, ⟨(rowOf image y).toArray⟩)] := by
      simp [rowsAt, Pass.hasRow, Pass.whole, Nat.mod_one, inside.2]
    have column : Pass.whole.hasColumn x = true := by
      simp [Pass.hasColumn, Pass.whole, Nat.mod_one]
    have number : (x - Pass.whole.column) / Pass.whole.columnStep = x := by
      simp [Pass.whole]
    rw [if_pos (by exact inside), pixel?_eq_nthPixel image inside.1 inside.2, row, pixelOf,
      if_pos column, number, pixelAt_rowOf image inside.1]
  · rw [if_neg (by exact inside)]
    exact ((Image.pixel?_eq_none_iff image x y).2 inside).symm

end Whole

end Koi.Png
