import Koi.Png.Envelope
import Koi.Proofs.Png.Bytes

/-!
# Stored bytes are expanded to themselves

Bytes that are stored as they are come out again, in whatever portions the compressed data comes to
hand and however the room for the output grows. At every moment the output is the beginning of the
bytes, and the blocks of the rest stand at the position that has been reached.

* `Block.run_head`: reading how a stored block begins.
* `Remains`: what a phase still has to expand, and how it is stored.
* `Inflation.Expands`: the invariant; `Inflation.Expands.step` is the step lemma, and
  `Inflation.Expands.runFor` the run lemma.
* `decompress?_compress`: what is expanded is what was stored; `remains_storeFrom` says that the
  work begins with the blocks of all bytes.
-/

namespace Koi.Png

/-! ## Numbers of bits -/

/-- The number that the next `n` bits denote. -/
def Bits.value (b : Bits) : Nat → Nat
  | 0 => 0
  | n + 1 => b.get 0 + 2 * (b.skip 1).value n

theorem Bits.skip_skip (b : Bits) (m n : Nat) : (b.skip m).skip n = b.skip (m + n) := by
  simp [Bits.skip, Nat.add_assoc]

theorem Bits.get_skip (b : Bits) (m i : Nat) : (b.skip m).get i = b.get (m + i) := by
  simp [Bits.skip, Bits.get, Nat.add_assoc]

theorem Bits.value_add (b : Bits) (m n : Nat) :
    b.value (m + n) = b.value m + 2 ^ m * (b.skip m).value n := by
  induction m generalizing b with
  | zero => simp [Bits.value, Bits.skip]
  | succ m ih =>
    rw [Nat.succ_add, Bits.value, ih, Bits.value, Bits.skip_skip, Nat.add_comm 1 m, Nat.pow_succ,
      Nat.mul_add, ← Nat.mul_assoc, Nat.mul_comm 2 (2 ^ m), Nat.add_assoc]

theorem bits_of_byte : ∀ n < 256, n >>> 0 % 2 + 2 * (n >>> 1 % 2 + 2 * (n >>> 2 % 2 +
    2 * (n >>> 3 % 2 + 2 * (n >>> 4 % 2 + 2 * (n >>> 5 % 2 + 2 * (n >>> 6 % 2 +
      2 * (n >>> 7 % 2 + 2 * 0))))))) = n := by
  decide +kernel

/-- Eight bits from the beginning of a byte on denote the byte. -/
theorem Bits.value_byte {b : Bits} {p : Nat} (hp : b.position = 8 * p)
    (h : b.position + 8 ≤ b.stop) : b.value 8 = (byteAt b.bytes p).toNat := by
  have bit {i : Nat} (hi : i < 8) : b.get i = (byteAt b.bytes p).toNat >>> i % 2 := by
    have hd : (8 * p + i) / 8 = p := by omega
    have hm : (8 * p + i) % 8 = i := by omega
    rw [Bits.get, if_pos (by omega), hp, hd, hm]
  simp only [Bits.value, Bits.get_skip, Bits.skip_skip, Nat.reduceAdd]
  rw [bit (by decide), bit (by decide), bit (by decide), bit (by decide), bit (by decide),
    bit (by decide), bit (by decide), bit (by decide)]
  exact bits_of_byte _ (byteAt b.bytes p).toNat_lt

/-- Two bytes denote a number, the less significant one first. -/
theorem Bits.value_two_bytes {b : Bits} {p : Nat} (hp : b.position = 8 * p)
    (h : b.position + 16 ≤ b.stop) :
    b.value 16 = (byteAt b.bytes p).toNat + 256 * (byteAt b.bytes (p + 1)).toNat := by
  have low := Bits.value_byte hp (by omega)
  have high := Bits.value_byte (b := b.skip 8) (p := p + 1) (by simp only [skip]; omega)
    (by simp only [skip]; omega)
  rw [Bits.value_add b 8 8, low, high]
  rfl

namespace BitReader

variable {α β : Type} {reader : BitReader α} {b : Bits}

theorem run_bind_ok {a : α} {b' : Bits} (h : reader.run b = .ok (a, b')) (next : α → BitReader β) :
    (reader >>= next).run b = (next a).run b' := by
  rw [StateT.run_bind, h]
  rfl

theorem run_bind_error {fault : Fault} (h : reader.run b = .error fault)
    (next : α → BitReader β) : (reader >>= next).run b = .error fault := by
  rw [StateT.run_bind, h]
  rfl

theorem run_bit (h : b.position < b.stop) : bit.run b = .ok (b.get 0, b.skip 1) := by
  simp [bit, StateT.run, h]

theorem run_number (n : Nat) (h : b.position ≤ b.stop) : (number n).run b =
    if b.position + n ≤ b.stop then .ok (b.value n, b.skip n) else .error .incomplete := by
  induction n generalizing b with
  | zero =>
    rw [Nat.add_zero, if_pos h]
    rfl
  | succ n ih =>
    rw [number]
    by_cases hb : b.position < b.stop
    · have rest := ih (b := b.skip 1) hb
      rw [run_bind_ok (run_bit hb)]
      by_cases hn : b.position + (n + 1) ≤ b.stop
      · rw [if_pos (by simp only [Bits.skip]; omega)] at rest
        rw [run_bind_ok rest, if_pos hn, Bits.skip_skip, Nat.add_comm 1 n]
        rfl
      · rw [if_neg (by simp only [Bits.skip]; omega)] at rest
        rw [run_bind_error rest, if_neg hn]
    · have first : bit.run b = .error .incomplete := by simp [bit, StateT.run, hb]
      rw [run_bind_error first, if_neg (by omega)]

/-- So many bits are there. -/
theorem run_number_ok {n : Nat} (h : b.position + n ≤ b.stop) :
    (number n).run b = .ok (b.value n, b.skip n) := by
  rw [run_number n (by omega), if_pos h]

theorem run_number_error {n : Nat} (h : b.position ≤ b.stop) (hn : b.stop < b.position + n) :
    (number n).run b = .error .incomplete := by
  rw [run_number n h, if_neg (by omega)]

end BitReader

/-! ## The beginning of a block -/

/-- The five bytes in front of stored ones. -/
def storedHead (last : Bool) (length : Nat) : List UInt8 :=
  [if last then 1 else 0, length.toUInt8, (length / 256).toUInt8,
    (65535 - length).toUInt8, ((65535 - length) / 256).toUInt8]

namespace Block

variable {bytes : ByteArray} {p stop length : Nat} {last : Bool}

theorem run_storedLength (h : StandsAt bytes p (storedHead last length)) (hl : length ≤ 65535)
    (hs : 8 * (p + 1) ≤ stop) : storedLength.run ⟨bytes, 8 * p + 3, stop⟩ =
      if 8 * p + 40 ≤ stop then .ok (length, ⟨bytes, 8 * (p + 5), stop⟩)
      else .error .incomplete := by
  have align : (modify Bits.align : BitReader Unit).run ⟨bytes, 8 * p + 3, stop⟩ =
      .ok ((), ⟨bytes, 8 * (p + 1), stop⟩) := by
    have aligned : (8 * p + 3 + 7) / 8 * 8 = 8 * (p + 1) := by omega
    show Except.ok ((), Bits.align _) = _
    rw [Bits.align, aligned]
  rw [storedLength, BitReader.run_bind_ok align]
  by_cases h₁ : 8 * (p + 1) + 16 ≤ stop
  · have first : Bits.value ⟨bytes, 8 * (p + 1), stop⟩ 16 = length := by
      rw [Bits.value_two_bytes rfl h₁, h.tail.byteAt, h.tail.tail.byteAt]
      simp only [Nat.toUInt8_eq, UInt8.toNat_ofNat']
      omega
    rw [BitReader.run_bind_ok (BitReader.run_number_ok h₁), first]
    by_cases h₂ : 8 * (p + 1) + 16 + 16 ≤ stop
    · have second : Bits.value (Bits.skip ⟨bytes, 8 * (p + 1), stop⟩ 16) 16 = 65535 - length := by
        have low : byteAt bytes (p + 3) = (65535 - length).toUInt8 := h.tail.tail.tail.byteAt
        have high : byteAt bytes (p + 3 + 1) = ((65535 - length) / 256).toUInt8 :=
          h.tail.tail.tail.tail.byteAt
        rw [Bits.value_two_bytes (p := p + 3) (by simp only [Bits.skip]; omega) h₂]
        simp only [Bits.skip, low, high, Nat.toUInt8_eq, UInt8.toNat_ofNat']
        omega
      have sum : length + (65535 - length) = 65535 := by omega
      have after : 8 * (p + 1) + 16 + 16 = 8 * (p + 5) := by omega
      rw [BitReader.run_bind_ok (BitReader.run_number_ok h₂), second, sum, if_pos (by omega)]
      show Except.ok (length, Bits.mk bytes (8 * (p + 1) + 16 + 16) stop) = _
      rw [after]
    · rw [BitReader.run_bind_error (BitReader.run_number_error h₁ (Nat.lt_of_not_le h₂)),
        if_neg (by omega)]
  · rw [BitReader.run_bind_error (BitReader.run_number_error hs (Nat.lt_of_not_le h₁)),
      if_neg (by omega)]

/-- The beginning of a stored block is read, or some of its bits are not there. -/
theorem run_head (h : StandsAt bytes p (storedHead last length)) (hl : length ≤ 65535) :
    head.run ⟨bytes, 8 * p, stop⟩ =
      if 8 * p + 40 ≤ stop then .ok ((last, .stored length), ⟨bytes, 8 * (p + 5), stop⟩)
      else .error .incomplete := by
  have get {i : Nat} (hi : i < 8) (hs : 8 * p + i < stop) : Bits.get ⟨bytes, 8 * p, stop⟩ i =
      (if last then 1 else 0 : UInt8).toNat >>> i % 2 := by
    have hd : (8 * p + i) / 8 = p := by omega
    have hm : (8 * p + i) % 8 = i := by omega
    rw [Bits.get, if_pos (by simp only; omega), hd, hm, h.byteAt]
  by_cases short : stop - 8 * p < minBits
  · have require : (BitReader.require minBits).run ⟨bytes, 8 * p, stop⟩ = .error .incomplete := by
      simp [BitReader.require, StateT.run, Bits.remaining, short]
    simp only [minBits] at short
    rw [head, BitReader.run_bind_error require, if_neg (by omega)]
  · have require : (BitReader.require minBits).run ⟨bytes, 8 * p, stop⟩ =
        .ok ((), ⟨bytes, 8 * p, stop⟩) := by
      simp [BitReader.require, StateT.run, Bits.remaining, short]
    simp only [minBits] at short
    have bit := BitReader.run_bit (b := ⟨bytes, 8 * p, stop⟩) (by simp only; omega)
    have kind := BitReader.run_number_ok (b := Bits.skip ⟨bytes, 8 * p, stop⟩ 1) (n := 2)
      (by simp only [Bits.skip]; omega)
    have stored : Bits.value (Bits.skip ⟨bytes, 8 * p, stop⟩ 1) 2 = 0 := by
      simp only [Bits.value, Bits.get_skip, Bits.skip_skip, Nat.reduceAdd]
      rw [get (by decide) (by omega), get (by decide) (by omega)]
      cases last <;> rfl
    rw [head, BitReader.run_bind_ok require, BitReader.run_bind_ok bit,
      BitReader.run_bind_ok kind, stored, get (by decide) (by omega)]
    have length : storedLength.run ⟨bytes, 8 * p + 3, stop⟩ = _ :=
      run_storedLength h hl (by omega)
    show StateT.run ((Block.stored <$> storedLength) >>= fun block => pure (_, block))
      ⟨bytes, 8 * p + 3, stop⟩ = _
    rw [StateT.run_bind, StateT.run_map, length]
    by_cases full : 8 * p + 40 ≤ stop
    · rw [if_pos full, if_pos full]
      cases last <;> rfl
    · rw [if_neg full, if_neg full]
      rfl

end Block

/-! ## What remains -/

/-- A phase still has to expand some bytes, which are stored in other ones. -/
inductive Remains : Phase → List UInt8 → List UInt8 → Prop
  | head {last : Bool} {l rest code : List UInt8} (size : l.length ≤ maxStored)
      (after : Remains (.after last) rest code) :
      Remains .head (l ++ rest) (storedHead last l.length ++ (l ++ code))
  | stored {last : Bool} {l rest code : List UInt8} (nonempty : l ≠ [])
      (after : Remains (.after last) rest code) :
      Remains (.stored last l.length) (l ++ rest) (l ++ code)
  | finished : Remains .finished [] []

theorem remains_ofBlock {last : Bool} {l rest code : List UInt8}
    (after : Remains (.after last) rest code) :
    Remains (.ofBlock last (.stored l.length)) (l ++ rest) (l ++ code) := by
  cases l with
  | nil => exact after
  | cons b l => exact .stored (List.cons_ne_nil b l) after

theorem Remains.eq_nil {rest code : List UInt8} (h : Remains .finished rest code) : rest = [] := by
  cases h
  rfl

theorem bytesOf_block (bytes out : ByteArray) (start : Nat) {n : Nat} (h : n ≤ bytes.size - start)
    (last : Bool) : bytesOf (append out [if last then 1 else 0, n.toUInt8, (n / 256).toUInt8,
        (65535 - n).toUInt8, ((65535 - n) / 256).toUInt8] ++ bytes.extract start (start + n)) =
      bytesOf out ++ (storedHead last (((bytesOf bytes).drop start).take n).length ++
        ((bytesOf bytes).drop start).take n) := by
  have length : (((bytesOf bytes).drop start).take n).length = n :=
    List.length_take_of_le (by simpa using h)
  rw [bytesOf_append, bytesOf_pngAppend, bytesOf_extract, Nat.add_sub_cancel_left, length,
    List.append_assoc]
  rfl

/-- The blocks that are written for some bytes hold these bytes. -/
theorem remains_storeFrom (bytes : ByteArray) (start : Nat) (out : ByteArray) : ∃ code,
    bytesOf (storeFrom bytes start out) = bytesOf out ++ code ∧
      Remains .head ((bytesOf bytes).drop start) code ∧
      code.length ≤ 2 * (bytes.size - start) + 5 := by
  have length_rest (start : Nat) : ((bytesOf bytes).drop start).length = bytes.size - start := by
    simp
  fun_induction storeFrom bytes start out with
  | case1 start out length last head written final =>
    have all : length = bytes.size - start := by
      simp only [last, length] at final ⊢
      omega
    have whole : ((bytesOf bytes).drop start).take length = (bytesOf bytes).drop start :=
      List.take_of_length_le (by rw [length_rest]; exact Nat.le_of_eq all.symm)
    refine ⟨storedHead true ((bytesOf bytes).drop start).length ++ (bytesOf bytes).drop start,
      ?_, ?_, ?_⟩
    · have block := bytesOf_block bytes out start (Nat.le_of_eq all) true
      have flag : head = [if (true : Bool) then 1 else 0, length.toUInt8, (length / 256).toUInt8,
          (65535 - length).toUInt8, ((65535 - length) / 256).toUInt8] := by simp [head, final]
      rw [← flag, whole] at block
      exact block
    · have size : ((bytesOf bytes).drop start).length ≤ maxStored := by
        simp only [last] at final
        rw [length_rest]
        omega
      have piece := @Remains.head true _ _ _ size .finished
      rwa [List.append_nil] at piece
    · simp only [List.length_append, length_rest, storedHead, List.length_cons, List.length_nil]
      omega
  | case2 start out length last head written more ih =>
    obtain ⟨code, store, remains, bound⟩ := ih
    have full : length = maxStored := by
      simp only [last, length] at more ⊢
      omega
    have fits : length ≤ bytes.size - start := by
      simp only [length]
      omega
    refine ⟨storedHead false (((bytesOf bytes).drop start).take length).length ++
      (((bytesOf bytes).drop start).take length ++ code), ?_, ?_, ?_⟩
    · have block := bytesOf_block bytes out start fits false
      have flag : head = [if (false : Bool) then 1 else 0, length.toUInt8, (length / 256).toUInt8,
          (65535 - length).toUInt8, ((65535 - length) / 256).toUInt8] := by simp [head, more]
      rw [← flag] at block
      rw [store, block]
      simp only [List.append_assoc]
    · have size : (((bytesOf bytes).drop start).take length).length ≤ maxStored := by
        rw [List.length_take, full]
        omega
      have piece := @Remains.head false _ _ _ size remains
      rwa [← List.drop_drop, ← full, List.take_append_drop] at piece
    · simp only [List.length_append, List.length_take_of_le (Nat.le_trans fits
        (Nat.le_of_eq (length_rest start).symm)), storedHead, List.length_cons, List.length_nil]
      simp only [maxStored] at full bound
      omega

/-! ## Expanding -/

/-- Bytes come out of a sequence of bytes: the output is their beginning, and the rest remains at
    the position that has been reached, in front of some other bytes. -/
inductive Inflation.Expands (bytes : ByteArray) (content tail : List UInt8) : Inflation → Prop
  | at {out : ByteArray} {phase : Phase} {p stop : Nat} {rest code : List UInt8}
      (content_eq : bytesOf out ++ rest = content) (remains : Remains phase rest code)
      (stands : StandsAt bytes p (code ++ tail)) :
      Expands bytes content tail ⟨out, phase, ⟨bytes, 8 * p, stop⟩⟩

namespace Inflation.Expands

variable {bytes : ByteArray} {content tail : List UInt8} {state : Inflation}

/-- What a step comes to: it goes on, or nothing can be done for lack of bits or room. -/
def Progress (bytes : ByteArray) (content tail : List UInt8) (limit : Nat) (state : Inflation)
    (outcome : Outcome) : Prop :=
  (∃ next, outcome = .next next ∧ Expands bytes content tail next ∧
    next.bits.stop = state.bits.stop ∧ state.bits.position < next.bits.position) ∨
  (outcome = .stuck state ∧
    (8 * bytes.size ≤ state.bits.stop → content.length ≤ limit → state.phase = .finished))

section

variable {out : ByteArray} {p stop limit : Nat} {last : Bool} {l rest code : List UInt8}

/-- The head of a block is taken as a whole, if it has come to hand. -/
theorem progress_stepHead (content_eq : bytesOf out ++ (l ++ rest) = content)
    (size : l.length ≤ maxStored) (after : Remains (.after last) rest code)
    (stands : StandsAt bytes p (storedHead last l.length ++ (l ++ code) ++ tail)) :
    Progress bytes content tail limit ⟨out, .head, ⟨bytes, 8 * p, stop⟩⟩
      (stepHead out ⟨bytes, 8 * p, stop⟩) := by
  rw [List.append_assoc] at stands
  obtain ⟨begin, stands⟩ := standsAt_append_iff.1 stands
  rw [stepHead, Block.run_head begin size]
  by_cases there : 8 * p + 40 ≤ stop
  · rw [if_pos there]
    refine .inl ⟨_, rfl, .at content_eq (remains_ofBlock after) stands, rfl, ?_⟩
    show 8 * p < 8 * (p + 5)
    omega
  · rw [if_neg there]
    refine .inr ⟨rfl, fun full _ => ?_⟩
    have inside : p + 5 ≤ bytes.size := begin.length_le (by simp [storedHead])
    exact absurd full (by simp only; omega)

/-- Of the bytes of a block, as many are taken as have come to hand and have room. -/
theorem progress_stepStored (content_eq : bytesOf out ++ (l ++ rest) = content) (nonempty : l ≠ [])
    (after : Remains (.after last) rest code) (stands : StandsAt bytes p (l ++ code ++ tail)) :
    Progress bytes content tail limit ⟨out, .stored last l.length, ⟨bytes, 8 * p, stop⟩⟩
      (stepStored limit out last l.length ⟨bytes, 8 * p, stop⟩) := by
  rw [stepStored]
  generalize hn : min l.length (min (limit - out.size)
    (Bits.remaining ⟨bytes, 8 * p, stop⟩ / 8)) = n
  simp only [Bits.remaining] at hn
  by_cases none : n = 0
  · rw [if_pos none]
    refine .inr ⟨rfl, fun full room => ?_⟩
    have positive : 0 < l.length := List.length_pos_iff.2 nonempty
    rw [List.append_assoc] at stands
    have inside := (standsAt_append_iff.1 stands).1.length_le nonempty
    have lengths := congrArg List.length content_eq
    simp only [List.length_append, length_bytesOf] at lengths full
    omega
  · have cut : l.take n ++ l.drop n = l := List.take_append_drop n l
    have length_take : (l.take n).length = n := List.length_take_of_le (by omega)
    have length_drop : (l.drop n).length = l.length - n := List.length_drop
    rw [← cut, List.append_assoc, List.append_assoc] at stands
    obtain ⟨copied, stands⟩ := standsAt_append_iff.1 stands
    have copy := copied.extract
    rw [length_take] at copy stands
    have start : 8 * p / 8 = p := by omega
    rw [if_neg none]
    refine .inl ⟨_, rfl, ?_, rfl, ?_⟩
    · have there : Bits.skip ⟨bytes, 8 * p, stop⟩ (8 * n) = ⟨bytes, 8 * (p + n), stop⟩ := by
        rw [Bits.skip, Nat.mul_add]
      rw [← length_drop, start, there]
      refine .at ?_ (remains_ofBlock after) (by rwa [List.append_assoc])
      rw [bytesOf_append, copy, ← content_eq, List.append_assoc, ← List.append_assoc (l.take n),
        cut]
    · show 8 * p < 8 * p + 8 * n
      omega

end

/-- Every step keeps the bytes together. -/
theorem step (h : Expands bytes content tail state) (limit : Nat) :
    Progress bytes content tail limit state (state.step limit) := by
  obtain ⟨content_eq, remains, stands⟩ := h
  cases remains with
  | head size after => exact progress_stepHead content_eq size after stands
  | stored nonempty after => exact progress_stepStored content_eq nonempty after stands
  | finished => exact .inr ⟨rfl, fun _ _ => rfl⟩

/-- The work goes on as long as there are bits and room. Every step takes some bits, so that it is
    not the fuel that ends the work. -/
theorem runFor (h : Expands bytes content tail state) (nonempty : tail ≠ []) (limit fuel : Nat)
    (enough : state.bits.remaining ≤ fuel) : ∃ next, state.runFor limit fuel = some next ∧
      Expands bytes content tail next ∧ next.bits.stop = state.bits.stop ∧
      (8 * bytes.size ≤ state.bits.stop → content.length ≤ limit → next.phase = .finished) := by
  induction fuel generalizing state with
  | zero =>
    refine ⟨state, rfl, h, rfl, fun full _ => ?_⟩
    -- Without fuel no bits remain. But if the bits reach as far as the bytes do, then the tail
    -- still remains: the case does not arise.
    obtain @⟨out, phase, p, stop, rest, code, -, -, stands⟩ := h
    have inside := stands.length_le (by simp [nonempty])
    have positive : 0 < tail.length := List.length_pos_iff.2 nonempty
    simp only [Bits.remaining, List.length_append] at enough full inside
    omega
  | succ fuel ih =>
    obtain ⟨next, hs, expands, stop, taken⟩ | ⟨hs, finished⟩ := h.step limit
    -- The limit and the stop stay while bits are taken, so the fuel suffices for what comes.
    · have less : next.bits.remaining ≤ fuel := by
        simp only [Bits.remaining, stop] at enough ⊢
        omega
      obtain ⟨last, hr, expands, stop', finished⟩ := ih expands less
      rw [stop] at stop' finished
      refine ⟨last, ?_, expands, stop', finished⟩
      rw [Inflation.runFor, hs]
      exact hr
    · refine ⟨state, ?_, h, rfl, finished⟩
      rw [Inflation.runFor, hs]

theorem advance? {e : Expansion} (h : Expands bytes content tail e.state) (nonempty : tail ≠ [])
    (room stop : Nat) : ∃ next, e.advance? room stop = some ⟨next, min room next.out.size⟩ ∧
      Expands bytes content tail next ∧ next.bits.stop = 8 * stop ∧
      (bytes.size ≤ stop → content.length ≤ room → bytesOf next.out = content) := by
  obtain ⟨⟨out, phase, bits⟩, filled⟩ := e
  obtain @⟨_, _, p, old, rest, code, content_eq, remains, stands⟩ := h
  have here : Expands bytes content tail ⟨out, phase, ⟨bytes, 8 * p, 8 * stop⟩⟩ :=
    .at content_eq remains stands
  obtain ⟨next, hr, expands, hs, finished⟩ := here.runFor nonempty room _ (Nat.le_refl _)
  refine ⟨next, ?_, expands, hs, fun full fits => ?_⟩
  · rw [Expansion.advance?]
    show (Inflation.runFor room _ _).map _ = _
    rw [hr]
    rfl
  · have done := finished (Nat.mul_le_mul_left 8 full) fits
    obtain ⟨content_eq, remains, -⟩ := expands
    simp only at done
    rw [done] at remains
    rw [← content_eq, remains.eq_nil, List.append_nil]

theorem eq_of_length_le (h : Expands bytes content tail state)
    (all : content.length ≤ state.out.size) : bytesOf state.out = content := by
  obtain @⟨out, phase, p, stop, rest, code, content_eq, -, -⟩ := h
  have lengths := congrArg List.length content_eq
  rw [List.length_append, length_bytesOf] at lengths
  simp only at all
  have nothing : rest = [] := List.eq_nil_of_length_eq_zero (by omega)
  rw [← content_eq, nothing, List.append_nil]

/-- All bytes come out by the time that everything has come to hand. -/
theorem until? {stops : List Nat} {e : Expansion} (h : Expands bytes content tail e.state)
    (nonempty : tail ≠ []) (last : ∀ stop, stops.getLast? = some stop → stop = bytes.size)
    (none : stops = [] → e.state.bits.stop = 8 * bytes.size) : ∃ out,
      Expansion.until? content.length content.length .other stops e = some out ∧
        bytesOf out = content := by
  fun_induction Expansion.until? content.length content.length .other stops e with
  | case1 e =>
    have stop : e.state.bits.stop / 8 = bytes.size := by
      rw [none rfl]
      omega
    obtain ⟨next, advance, -, -, all⟩ := h.advance? nonempty content.length bytes.size
    have done := all (Nat.le_refl _) (Nat.le_refl _)
    have size : next.out.size = content.length := by rw [← length_bytesOf, done]
    refine ⟨next.out, ?_, done⟩
    show (do
      let e ← e.advance? content.length (e.state.bits.stop / 8)
      if e.isComplete content.length ∧ content.length ≤ e.filled then some e.state.out
        else Option.none) = _
    rw [stop, advance, size, Nat.min_self]
    simp [Expansion.isComplete]
  | case2 e stop rest filled fails =>
    obtain ⟨next, advance, -⟩ := h.advance? nonempty _ stop
    cases fails.symm.trans advance
  | case3 e stop rest filled next advance enough =>
    obtain ⟨state, advance', expands, -, -⟩ := h.advance? nonempty _ stop
    obtain rfl := Option.some.inj (advance.symm.trans advance')
    refine ⟨_, rfl, expands.eq_of_length_le ?_⟩
    exact Nat.le_trans enough (Nat.le_trans (Expansion.usable_le_filled _ _) (Nat.min_le_right _ _))
  | case4 e stop rest filled next advance more again ih =>
    obtain ⟨state, advance', expands, -, -⟩ := h.advance? nonempty _ stop
    obtain rfl := Option.some.inj (advance.symm.trans advance')
    exact ih expands last (by simp)
  | case5 e stop rest filled next advance more again ih =>
    obtain ⟨state, advance', expands, stop_eq, -⟩ := h.advance? nonempty _ stop
    obtain rfl := Option.some.inj (advance.symm.trans advance')
    refine ih expands (fun other ho => last other ?_) ?_
    · rw [List.getLast?_cons, ho]
      rfl
    · rintro rfl
      rw [stop_eq, last stop rfl]

end Inflation.Expands

/-! ## Envelopes -/

/-- What has been put into an envelope is taken out of it, in whatever portions it comes. -/
theorem decompress?_compress (content : ByteArray) {stops : List Nat}
    (last : stops.getLast? = some (compress content).size) :
    decompress? content.size content.size ⟨compress content, stops.toArray, .other⟩ =
      some content := by
  obtain ⟨code, store, remains, -⟩ := remains_storeFrom content 0 ⟨#[0x78, 0x01]⟩
  rw [List.drop_zero] at remains
  have file : bytesOf (compress content) =
      [0x78, 0x01] ++ (code ++ bigEndian (adler32 content)) ++ [] := by
    rw [compress, bytesOf_pngAppend, store]
    simp
  have begins : StandsAt (compress content) 0 [0x78, 0x01] :=
    standsAt_zero_of_eq (by rw [file, List.append_assoc])
  have stands : StandsAt (compress content) 2 (code ++ bigEndian (adler32 content)) :=
    standsAt_of_eq file
  have start : Inflation.Expands (compress content) (bytesOf content) (bigEndian (adler32 content))
      (Expansion.mk ⟨.empty, .head, ⟨compress content, 8 * 2, 0⟩⟩ 0).state :=
    .at rfl remains stands
  have ends (stop : Nat) (hs : stops.getLast? = some stop) : stop = (compress content).size :=
    Option.some.inj (hs.symm.trans last)
  obtain ⟨out, done, same⟩ := start.until? (by simp [bigEndian]) ends (by rintro rfl; cases last)
  rw [length_bytesOf, bytesOf_injective same] at done
  rw [decompress?]
  dsimp only
  rw [begins.byteAt, begins.tail.byteAt, if_pos (by decide)]
  exact done

theorem size_compress_le (content : ByteArray) :
    (compress content).size ≤ 2 * content.size + 11 := by
  obtain ⟨code, store, -, bound⟩ := remains_storeFrom content 0 ⟨#[0x78, 0x01]⟩
  have lengths := congrArg List.length store
  rw [compress, ← length_bytesOf, bytesOf_pngAppend, store]
  simp only [List.length_append, bytesOf_mk, List.length_cons, List.length_nil, bigEndian]
  omega

end Koi.Png
