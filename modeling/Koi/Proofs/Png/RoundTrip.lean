import Koi.Proofs.Png.Rows
import Koi.Proofs.Png.Stored

/-!
# Written images are read back

The file of an image is its header, its rows in one chunk of compressed data, and an end. It shows
the image and nothing else.

* `Chunk.at?_of_standsAt`: a chunk is read where it stands.
* `Parts.collect?_of_bytesOf`: the parts of a written file.
* `isLossless`: the file of an image shows the image.
-/

namespace Koi.Png

theorem toNat_toUInt32 {n : Nat} (h : n < 2 ^ 32) : n.toUInt32.toNat = n := by
  simp only [Nat.toUInt32_eq, UInt32.toNat_ofNat']
  exact Nat.mod_eq_of_lt h

/-! ## Chunks -/

namespace Chunk

/-- The bytes of a chunk. -/
def bytes (chunk : Chunk) : List UInt8 :=
  bigEndian chunk.content.size.toUInt32 ++ (bigEndian chunk.kind ++ (bytesOf chunk.content ++
    bigEndian (crc32 ⟨(bigEndian chunk.kind).toArray⟩ chunk.content)))

@[simp] theorem bytesOf_append (file : ByteArray) (chunk : Chunk) :
    bytesOf (append file chunk) = bytesOf file ++ chunk.bytes := by
  simp [append, bytes]

theorem length_bytes (chunk : Chunk) : chunk.bytes.length = 12 + chunk.content.size := by
  simp [bytes, bigEndian]
  omega

variable {file : ByteArray} {position : Nat} {chunk : Chunk}

theorem kindAt?_of_standsAt (h : StandsAt file position chunk.bytes) :
    kindAt? file position = some chunk.kind :=
  (standsAt_append_iff.1 (standsAt_append_iff.1 h).2).1.bigEndianAt?

theorem length_of_standsAt (h : StandsAt file position chunk.bytes) :
    bigEndianAt? file position = some chunk.content.size.toUInt32 :=
  (standsAt_append_iff.1 h).1.bigEndianAt?

/-- The content of a chunk ends with its check value, which is there too. -/
theorem stop_le_of_standsAt (h : StandsAt file position chunk.bytes) :
    position + 12 + chunk.content.size ≤ file.size := by
  have inside := h.length_le (by simp [bytes, bigEndian])
  rw [length_bytes] at inside
  omega

theorem extract_of_standsAt (h : StandsAt file position chunk.bytes) :
    file.extract (position + 8) (position + 8 + chunk.content.size) = chunk.content := by
  obtain ⟨-, h⟩ := standsAt_append_iff.1 (standsAt_append_iff.1 h).2
  exact bytesOf_injective (standsAt_append_iff.1 h).1.extract

/-- A chunk is read where it stands, and its check value is right. -/
theorem at?_of_standsAt (h : StandsAt file position chunk.bytes)
    (size : chunk.content.size < 2 ^ 32) :
    at? file position = some (chunk, true, position + 12 + chunk.content.size) := by
  have kind_read := kindAt?_of_standsAt h
  have length_read := length_of_standsAt h
  have content_read := extract_of_standsAt h
  have length := toNat_toUInt32 size
  obtain ⟨kind, h⟩ := standsAt_append_iff.1 (standsAt_append_iff.1 h).2
  obtain ⟨-, check⟩ := standsAt_append_iff.1 h
  have kind_bytes : file.extract (position + 4) (position + 8) = ⟨(bigEndian chunk.kind).toArray⟩ :=
    bytesOf_injective kind.extract
  have check_read : bigEndianAt? file (position + 8 + chunk.content.size) = some _ :=
    check.bigEndianAt?
  rw [at?, length_read, kind_read]
  simp only [Option.bind_eq_bind, Option.bind_some, length, content_read, kind_bytes, check_read]
  have stop : position + 8 + chunk.content.size + 4 = position + 12 + chunk.content.size := by omega
  rw [stop]
  rfl

end Chunk

namespace Parts

variable {file : ByteArray} {position : Nat} {chunk next : Chunk}

/-- What stands in front of the data ends at the data. -/
theorem tables?_of_standsAt (h : StandsAt file position chunk.bytes)
    (kind : chunk.kind = ChunkKind.data) (p : Parts) :
    tables? file file.size position p = some (p, position) := by
  have inside := Chunk.stop_le_of_standsAt h
  obtain ⟨fuel, hf⟩ := Nat.exists_eq_succ_of_ne_zero (by omega : file.size ≠ 0)
  rw [hf, Nat.succ_eq_add_one, tables?, Chunk.kindAt?_of_standsAt h, kind]
  rfl

theorem getLast?_stopsBetween (start stop : Nat) :
    ((stopsBetween start stop).map (· - start)).getLast? = some (stop - start) := by
  simp [stopsBetween]

theorem append_none (bytes : ByteArray) (stops : List Nat) :
    Arrival.none.append bytes stops = ⟨bytes, stops.toArray, .other⟩ := by
  simp [Arrival.append, Arrival.none]

/-- The data of a single chunk comes to hand in portions, and the last one ends with it. -/
theorem data_of_standsAt (h : StandsAt file position chunk.bytes)
    (kind : chunk.kind = ChunkKind.data) (size : chunk.content.size < 2 ^ 32)
    (after : StandsAt file (position + 12 + chunk.content.size) next.bytes)
    (other : next.kind ≠ ChunkKind.data) : ∃ stops : List Nat,
      stops.getLast? = some chunk.content.size ∧
      data file file.size position .none = ⟨chunk.content, stops.toArray, .other⟩ := by
  have inside := Chunk.stop_le_of_standsAt h
  have more := Chunk.stop_le_of_standsAt after
  obtain ⟨fuel, hf⟩ := Nat.exists_eq_add_of_le' (by omega : 2 ≤ file.size)
  have stop : min (position + 8 + chunk.content.size) file.size =
      position + 8 + chunk.content.size := by omega
  refine ⟨(stopsBetween (position + 8) (position + 8 + chunk.content.size)).map
    (· - (position + 8)), ?_, ?_⟩
  · rw [getLast?_stopsBetween, Nat.add_sub_cancel_left]
  · have rest := Chunk.at?_of_standsAt h size
    rw [hf, data, Chunk.length_of_standsAt h, Chunk.kindAt?_of_standsAt h]
    simp only [kind, ne_eq, not_true_eq_false, if_false, toNat_toUInt32 size, stop,
      Chunk.extract_of_standsAt h, append_none, rest]
    rw [data, Chunk.length_of_standsAt after, Chunk.kindAt?_of_standsAt after]
    simp only [ne_eq, other, not_false_eq_true, if_true]

end Parts

/-! ## Headers -/

theorem Header.size_bytesOfSize (width height : Nat) : (bytesOfSize width height).size = 13 := by
  simp [← length_bytesOf, bytesOfSize, bigEndian]

theorem Header.ofBytes?_bytesOfSize {width height : Nat} (hw : 0 < width ∧ width < 2 ^ 32)
    (hh : 0 < height ∧ height < 2 ^ 32) :
    ofBytes? (bytesOfSize width height) = some (rgbaHeader width height) := by
  have ne_zero {n : Nat} (h : 0 < n ∧ n < 2 ^ 32) : n.toUInt32 ≠ 0 := by
    intro hn
    have := toNat_toUInt32 h.2
    rw [hn] at this
    exact absurd this.symm (Nat.ne_of_gt h.1)
  have whole : bytesOf (bytesOfSize width height) =
      [] ++ (bigEndian width.toUInt32 ++ (bigEndian height.toUInt32 ++ [8, 6, 0, 0, 0])) ++ [] := by
    simp [bytesOfSize]
  have size := size_bytesOfSize width height
  obtain ⟨w, rest⟩ := standsAt_append_iff.1 (standsAt_of_eq whole)
  obtain ⟨h, rest⟩ := standsAt_append_iff.1 rest
  have depth : byteAt (bytesOfSize width height) 8 = 8 := rest.byteAt
  have color : byteAt (bytesOfSize width height) 9 = 6 := rest.tail.byteAt
  have method : byteAt (bytesOfSize width height) 10 = 0 := rest.tail.tail.byteAt
  have filter : byteAt (bytesOfSize width height) 11 = 0 := rest.tail.tail.tail.byteAt
  have interlace : byteAt (bytesOfSize width height) 12 = 0 := rest.tail.tail.tail.tail.byteAt
  have width_read : bigEndianAt? (bytesOfSize width height) 0 = _ := w.bigEndianAt?
  have height_read : bigEndianAt? (bytesOfSize width height) 4 = _ := h.bigEndianAt?
  rw [ofBytes?]
  simp only [size, width_read, height_read, depth, color, method, filter, interlace,
    Option.bind_eq_bind, Option.bind_some]
  have rgba : ColorType.ofCode? (UInt8.toNat 6) = some .rgba := rfl
  rw [if_neg (by decide), rgba, Option.bind_some,
    if_neg (by simp [ne_zero hw, ne_zero hh, ColorType.depths]), toNat_toUInt32 hw.2,
    toNat_toUInt32 hh.2]
  rfl

/-! ## Files -/

/-- The chunks of an image file. -/
def chunksOf (image : Image) : List Chunk :=
  [⟨ChunkKind.header, Header.bytesOfSize image.width image.height⟩,
    ⟨ChunkKind.data, compress (scanlines image)⟩, ⟨ChunkKind.last, .empty⟩]

theorem encode?_eq_some {image : Image} (nonempty : image.isEmpty = false) : ∃ file,
    encode? image = some file ∧
      bytesOf file = signature ++ (chunksOf image).flatMap Chunk.bytes := by
  refine ⟨_, if_neg (by simp [nonempty]), ?_⟩
  simp [chunksOf]

/-- An image is small enough for its file to be read back. -/
def IsSmall (image : Image) : Prop := 4 * (image.width * image.height) ≤ Parts.maxImageSize

section File

variable {image : Image} (nonempty : image.isEmpty = false) (small : IsSmall image)
include nonempty small

theorem edges_of_isSmall : (0 < image.width ∧ image.width < 2 ^ 32) ∧
    0 < image.height ∧ image.height < 2 ^ 32 := by
  simp only [Image.isEmpty, Bool.or_eq_false_iff, decide_eq_false_iff_not] at nonempty
  have hw : 0 < image.width := by omega
  have hh : 0 < image.height := by omega
  have width := Nat.le_mul_of_pos_right image.width hh
  have height := Nat.le_mul_of_pos_left image.height hw
  simp only [IsSmall, Parts.maxImageSize] at small
  omega

theorem size_compress_scanlines : (compress (scanlines image)).size < 2 ^ 32 := by
  obtain ⟨⟨hw, -⟩, hh, -⟩ := edges_of_isSmall nonempty small
  have height := Nat.le_mul_of_pos_left image.height hw
  have rows : image.height * (1 + 4 * image.width) =
      image.height + 4 * (image.width * image.height) := by
    rw [Nat.mul_add, Nat.mul_one, Nat.mul_left_comm, Nat.mul_comm image.height]
  have bound := size_compress_le (scanlines image)
  rw [size_scanlines nonempty, rows] at bound
  simp only [IsSmall, Parts.maxImageSize] at small
  omega

variable {file : ByteArray}
  (content : bytesOf file = signature ++ (chunksOf image).flatMap Chunk.bytes)
include content

omit nonempty small in
/-- Where the chunks of a written file stand. -/
theorem standsAt_chunks :
    StandsAt file 0 signature ∧
    StandsAt file 8 (Chunk.bytes ⟨ChunkKind.header, Header.bytesOfSize image.width image.height⟩) ∧
    StandsAt file 33 (Chunk.bytes ⟨ChunkKind.data, compress (scanlines image)⟩) ∧
    StandsAt file (45 + (compress (scanlines image)).size)
      (Chunk.bytes ⟨ChunkKind.last, .empty⟩) := by
  have whole : StandsAt file 0 (signature ++ (chunksOf image).flatMap Chunk.bytes) :=
    standsAt_zero_of_eq (content.trans (List.append_nil _).symm)
  simp only [chunksOf, List.flatMap_cons] at whole
  obtain ⟨sign, rest⟩ := standsAt_append_iff.1 whole
  obtain ⟨header, rest⟩ := standsAt_append_iff.1 rest
  obtain ⟨data, rest⟩ := standsAt_append_iff.1 rest
  obtain ⟨last, -⟩ := standsAt_append_iff.1 rest
  simp only [Chunk.length_bytes, Header.size_bytesOfSize] at data last
  refine ⟨sign, header, data, ?_⟩
  have position : 45 + (compress (scanlines image)).size =
      0 + signature.length + (12 + 13) + (12 + (compress (scanlines image)).size) := by
    simp only [signature, List.length_cons, List.length_nil]
    omega
  rwa [position]

/-- A written file has the header of its image and its rows. -/
theorem Parts.collect?_of_bytesOf : ∃ stops : List Nat,
    stops.getLast? = some (compress (scanlines image)).size ∧
    Parts.collect? file = some ({ header := rgbaHeader image.width image.height },
      ⟨compress (scanlines image), stops.toArray, .other⟩) := by
  obtain ⟨sign, header, data, last⟩ := standsAt_chunks content
  obtain ⟨hw, hh⟩ := edges_of_isSmall nonempty small
  have sign_read : (file.extract 0 8).data.toList = signature := sign.extract
  have header_read := Chunk.at?_of_standsAt header (by
    simp only [Header.size_bytesOfSize]
    decide)
  have tables_read := tables?_of_standsAt data rfl { header := rgbaHeader image.width image.height }
  obtain ⟨stops, hs, arrival⟩ := data_of_standsAt data rfl
    (size_compress_scanlines nonempty small) last (by decide)
  refine ⟨stops, hs, ?_⟩
  have fits : ¬ maxImageSize < imageSize { header := rgbaHeader image.width image.height } := by
    show ¬ maxImageSize < image.width * image.height * 4 * 1
    simp only [IsSmall] at small
    omega
  -- Every piece has been read where it stands: what is left is to put the readings together.
  rw [collect?]
  simp only [sign_read, header_read, Option.bind_eq_bind, Option.bind_some, ne_eq,
    not_true_eq_false, Bool.not_true, Bool.false_eq_true, or_self, if_false,
    Header.ofBytes?_bytesOfSize hw hh, Header.size_bytesOfSize, Nat.reduceAdd, tables_read, fits,
    arrival]
  rfl

theorem decode_of_bytesOf : decode file = .ok image := by
  obtain ⟨stops, last, parts⟩ := Parts.collect?_of_bytesOf nonempty small content
  have complete : (Arrival.mk (compress (scanlines image)) stops.toArray .other).ending = .other :=
    rfl
  have read := assemble?_scanlines nonempty complete (by
    rw [dataSize_rgbaHeader nonempty, decompress?_compress _ last])
  have palette : Parts.hasCutPalette { header := rgbaHeader image.width image.height } = false :=
    rfl
  rw [decode, parts]
  simp only [palette, Bool.false_and, Bool.false_eq_true, if_false]
  rw [read]

end File

/-- The file of an image shows the image. -/
theorem isLossless {image : Image} (nonempty : image.isEmpty = false) (small : IsSmall image) :
    codec.IsLossless image := by
  obtain ⟨file, encoded, content⟩ := encode?_eq_some nonempty
  exact ⟨file, encoded, decode_of_bytesOf nonempty small content⟩

end Koi.Png
