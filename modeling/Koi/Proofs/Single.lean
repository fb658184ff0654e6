import Koi.Image.Overlay
import Mathlib

/-!
# Single precision in natural numbers

A positive number of single precision is a natural number of 24 bits over a power of two. Sums,
products and quotients of such numbers are worked out in natural numbers, with one rounding each.
So the outcome of a longer computation is found without the bits of the numbers in between.

* `nearest`: a quotient rounded to the nearest natural number, a tie to the even one.
* `Single`, `Single.Of`: such a number, and what it means that a float has this value.
* `Single.round?`: rounding to 24 bits; `Single.of_round` says that floats are rounded like this.
* `Single.add?`, `Single.sub?`, `Single.mul?`, `Single.div?`: the operations, with `Of.add` and so
  on for their soundness. They are undefined where a result is not positive, or might be too large
  or too small for this form.
* `Single.blend?`: the alpha of a blend, worked out in this way.
-/

namespace Koi

open Float.Model
open Float.Model.UnpackedFloat

/-! ## Rounding -/

/-- The natural number nearest to `p / q`, the even one of two. -/
def nearest (p q : Nat) : Nat :=
  if 2 * (p % q) < q then p / q
  else if 2 * (p % q) = q then p / q + p / q % 2
  else p / q + 1

theorem le_nearest (p q : Nat) : p / q ≤ nearest p q := by
  unfold nearest
  split
  · exact le_rfl
  · split <;> omega

theorem nearest_le (p q : Nat) : nearest p q ≤ p / q + 1 := by
  unfold nearest
  split
  · omega
  · split <;> omega

/-- The mantissa of `p / q`, whose extra bits say where in between the quotient lies. -/
structure Extends (em : ExtendedMantissa) (p q : Nat) : Prop where
  mantissa : em.mantissa = p / q
  roundBit : em.roundBit = true ↔ q ≤ 2 * (p % q)
  stickyBit : em.stickyBit = true ↔ 2 * (p % q) ≠ 0 ∧ 2 * (p % q) ≠ q

theorem extends_exact (m : Nat) : Extends (.ofMantissaAndAccuracy m .exact) m 1 := by
  constructor <;> simp [ExtendedMantissa.ofMantissaAndAccuracy, Nat.mod_one]

theorem extends_fraction (p : Nat) {q : Nat} (hq : 0 < q) :
    Extends (.ofMantissaAndAccuracy (p / q) (accuracyOfFraction (p % q) q)) p q := by
  unfold accuracyOfFraction
  by_cases hz : p % q = 0
  · rw [if_pos hz]
    constructor <;> simp [ExtendedMantissa.ofMantissaAndAccuracy, hz, hq.ne']
  · rw [if_neg hz]
    rcases Nat.lt_trichotomy (2 * (p % q)) q with h | h | h
    · rw [Nat.compare_eq_lt.2 h]
      constructor <;> simp [ExtendedMantissa.ofMantissaAndAccuracy] <;> omega
    · rw [Nat.compare_eq_eq.2 h]
      constructor <;> simp [ExtendedMantissa.ofMantissaAndAccuracy] <;> omega
    · rw [Nat.compare_eq_gt.2 h]
      constructor <;> simp [ExtendedMantissa.ofMantissaAndAccuracy] <;> omega

namespace Extends

variable {em : ExtendedMantissa} {p q : Nat}

theorem shiftRightOne (h : Extends em p q) (hq : 0 < q) :
    Extends em.shiftRightOne p (q * 2) := by
  have hmod : p % (q * 2) = p % q + q * (p / q % 2) := Nat.mod_mul
  have hlt := Nat.mod_lt p hq
  have hbit : q * (p / q % 2) = if p / q % 2 = 0 then 0 else q := by
    rcases Nat.mod_two_eq_zero_or_one (p / q) with hz | hz <;> rw [hz] <;> simp
  rw [hbit] at hmod
  constructor
  · rw [ExtendedMantissa.shiftRightOne, h.mantissa, Nat.div_div_eq_div_mul]
  · rw [ExtendedMantissa.shiftRightOne, h.mantissa, hmod]
    split <;> simp [*] <;> omega
  · simp only [ExtendedMantissa.shiftRightOne, Bool.or_eq_true, h.roundBit, h.stickyBit, hmod]
    split <;> omega

theorem shiftRight (h : Extends em p q) (hq : 0 < q) (n : Nat) :
    Extends (em >>> n) p (q * 2 ^ n) := by
  induction n with
  | zero =>
    rw [pow_zero, mul_one]
    exact h
  | succ n ih =>
    rw [pow_succ, ← mul_assoc]
    exact ih.shiftRightOne (Nat.mul_pos hq (Nat.two_pow_pos n))

theorem roundedMantissa (h : Extends em p q) : em.roundedMantissa = nearest p q := by
  obtain ⟨mantissa, roundBit, stickyBit⟩ := em
  obtain ⟨rfl, hr, hs⟩ := h
  simp only at hr hs
  unfold nearest
  cases roundBit <;> cases stickyBit <;>
    simp only [Bool.false_eq_true, false_iff, true_iff] at hr hs
  · rw [if_pos (by omega)]
    rfl
  · rw [if_pos (by omega)]
    rfl
  · rw [if_neg (by omega), if_pos (by omega)]
    rfl
  · rw [if_neg (by omega), if_neg (by omega)]
    rfl

end Extends

/-! ## Normal numbers -/

/-- A positive number: a mantissa over a power of two. -/
structure Single where
  mantissa : Nat
  scale : Nat
  deriving DecidableEq, Repr

namespace Single

/-- A float has this value, which is a normal number below `2 ^ 24`. -/
structure Of (f : Float32) (x : Single) : Prop where
  le_mantissa : 2 ^ 23 ≤ x.mantissa
  mantissa_lt : x.mantissa < 2 ^ 24
  scale_le : x.scale ≤ 149
  unpack_eq : f.toModel.unpack =
    .finite .positive x.mantissa (-x.scale) (Nat.lt_of_lt_of_le (Nat.two_pow_pos 23) le_mantissa)

/-! ### Packing -/

theorem toNat_one_append {m : Nat} (lo : 2 ^ 23 ≤ m) (hi : m < 2 ^ 24) :
    (1#1 ++ BitVec.ofNat 23 m).toNat = m := by
  rw [BitVec.toNat_append, ← Nat.shiftLeft_add_eq_or_of_lt (BitVec.isLt _), BitVec.toNat_ofNat]
  simp [Nat.shiftLeft_eq]
  omega

/-- The exponent of a normal number is stored with a bias, and the first bit of its mantissa is left
    out. -/
theorem pack_eq {m k : Nat} (lo : 2 ^ 23 ≤ m) (hi : m < 2 ^ 24) (hk : k ≤ 149) (hpos : 0 < m) :
    UnpackedFloat.pack Format.binary32 (.finite .positive m (-k) hpos) =
      packComponents Format.binary32 .positive (BitVec.ofNat 8 (150 - k)) (BitVec.ofNat 23 m) := by
  have hlog : m.log2 = 23 := (Nat.log2_eq_iff (by omega)).2 ⟨lo, hi⟩
  have hbiased : (-(k : Int) + (Format.binary32.exponentBias : Nat) +
      (Format.binary32.mantissaBitsWithoutImplicit : Nat)).toNat = 150 - k := by
    simp [Format.exponentBias]
    omega
  have hnormal : 23 + 1 = Format.binary32.mantissaBits := rfl
  have hfinite : ¬ 2 ^ Format.binary32.exponentBits ≤ 150 - k + 1 := by
    simp
    omega
  rw [UnpackedFloat.pack]
  simp only [hbiased, hlog]
  rw [if_neg hfinite, if_pos hnormal]

/-- Packing keeps a normal number as it is. -/
theorem of_pack {m k : Nat} (lo : 2 ^ 23 ≤ m) (hi : m < 2 ^ 24) (hk : k ≤ 149) (hpos : 0 < m) :
    Of ⟨.pack (.finite .positive m (-k) hpos)⟩ ⟨m, k⟩ := by
  refine ⟨lo, hi, hk, ?_⟩
  have hbits : (BitVec.ofNat 8 (150 - k)).toNat = 150 - k := by
    rw [BitVec.toNat_ofNat, Nat.mod_eq_of_lt (by omega)]
  have hzero : BitVec.ofNat 8 (150 - k) ≠ 0#8 := by
    intro hz
    rw [hz] at hbits
    simp at hbits
    omega
  have hones : BitVec.ofNat 8 (150 - k) ≠ -1#8 := by
    intro hz
    rw [hz] at hbits
    simp at hbits
    omega
  show UnpackedFloat.unpack Format.binary32 (UnpackedFloat.pack Format.binary32 _) = _
  rw [pack_eq lo hi hk hpos, UnpackedFloat.unpack]
  simp only [unpackExponent_packComponents, unpackMantissa_packComponents,
    unpackSign_packComponents, hbits, toNat_one_append lo hi, if_neg hones, if_neg hzero]
  congr 1
  simp [Format.exponentBias]
  omega

/-! ### Rounding to 24 bits -/

/-- Goes on with a number that is worked out first. Otherwise an evaluation in the kernel would work
    it out again at each place where it is used. -/
def evaluated {α : Type} (n : Nat) (next : Nat → α) : α :=
  match n with
  | 0 => next 0
  | n + 1 => next (n + 1)

theorem evaluated_eq {α : Type} (n : Nat) (next : Nat → α) : evaluated n next = next n := by
  cases n <;> rfl

/-- The number nearest to `p / q / 2 ^ scale`. It is undefined if the integral part of `p / q` has
    fewer than 24 bits, or if the number might be too large or too small. -/
def round? (p q scale : Nat) : Option Single :=
  evaluated p fun p =>
  evaluated scale fun scale =>
  evaluated ((p / q).log2 - 23) fun extra =>
  evaluated (nearest p (q * 2 ^ extra)) fun mantissa =>
  if 2 ^ 23 ≤ p / q ∧ extra < scale ∧ scale ≤ extra + 149 then
    some (if mantissa = 2 ^ 24 then ⟨2 ^ 23, scale - extra - 1⟩ else ⟨mantissa, scale - extra⟩)
  else none

theorem round?_eq (p q scale : Nat) : round? p q scale =
    let extra := (p / q).log2 - 23
    let mantissa := nearest p (q * 2 ^ extra)
    if 2 ^ 23 ≤ p / q ∧ extra < scale ∧ scale ≤ extra + 149 then
      some (if mantissa = 2 ^ 24 then ⟨2 ^ 23, scale - extra - 1⟩ else ⟨mantissa, scale - extra⟩)
    else none := by
  simp only [round?, evaluated_eq]

theorem le_of_round? {p q scale : Nat} {x : Single} (hx : round? p q scale = some x) :
    2 ^ 23 ≤ p / q := by
  rw [round?_eq] at hx
  simp only at hx
  split at hx
  · next h => exact h.1
  · cases hx

theorem nearest_bounds {p q extra : Nat} (hpos : p / q ≠ 0) (hlog : (p / q).log2 = 23 + extra) :
    2 ^ 23 ≤ nearest p (q * 2 ^ extra) ∧ nearest p (q * 2 ^ extra) ≤ 2 ^ 24 := by
  obtain ⟨lo, hi⟩ := (Nat.log2_eq_iff hpos).1 hlog
  have hlow := le_nearest p (q * 2 ^ extra)
  have hhigh := nearest_le p (q * 2 ^ extra)
  rw [← Nat.div_div_eq_div_mul] at hlow hhigh
  have h1 : 2 ^ 23 ≤ p / q / 2 ^ extra := by
    rwa [Nat.le_div_iff_mul_le (Nat.two_pow_pos extra), ← pow_add]
  have h2 : p / q / 2 ^ extra < 2 ^ 24 := by
    rw [Nat.div_lt_iff_lt_mul (Nat.two_pow_pos extra), ← pow_add]
    rwa [show 24 + extra = 23 + extra + 1 by omega]
  omega

theorem targetExponent_eq {m scale extra : Nat} (hlog : m.log2 = 23 + extra)
    (hs : scale ≤ extra + 149) :
    Format.binary32.targetExponent (totalExponent m (-scale)) = extra - scale := by
  simp only [Format.targetExponent, totalExponent, Format.mantissaBits, Format.minExponent, hlog]
  norm_num
  omega

theorem shiftToTargetExponent_eq {m scale extra : Nat} (hlog : m.log2 = 23 + extra)
    (hs : scale ≤ extra + 149) (accuracy : Accuracy) :
    shiftToTargetExponent Format.binary32 m (-scale) accuracy =
      (ExtendedMantissa.ofMantissaAndAccuracy m accuracy >>> extra, extra - (scale : Int)) := by
  have hshift : (((extra : Int) - scale) - -scale).toNat = extra := by omega
  simp only [shiftToTargetExponent, targetExponent_eq hlog hs, shiftToExponent, hshift]
  congr 1
  omega

/-- A mantissa is shifted, rounded, and shifted again in case it has become too long. -/
theorem roundWithAccuracy_eq {m r m' : Nat} {e e' k : Int} {accuracy : Accuracy}
    {em em' : ExtendedMantissa}
    (first : shiftToTargetExponent Format.binary32 m e accuracy = (em, k))
    (round : em.roundedMantissa = r)
    (second : shiftToTargetExponent Format.binary32 r k .exact = (em', e'))
    (hm : em'.mantissa = m') (hpos : 0 < m') :
    roundWithAccuracy Format.binary32 .positive m e accuracy = .finite .positive m' e' hpos := by
  subst round hm
  simp only [roundWithAccuracy, first, second, hpos.ne', ↓reduceDIte]

/-- A rounded mantissa of 24 bits stays, and the next power of two is shifted by one bit. -/
theorem of_rounded {m r k : Nat} {e : Int} {accuracy : Accuracy} {em : ExtendedMantissa}
    (first : shiftToTargetExponent Format.binary32 m e accuracy = (em, -(k : Int)))
    (round : em.roundedMantissa = r) (lo : 2 ^ 23 ≤ r) (hi : r ≤ 2 ^ 24) (hpos : 0 < k)
    (hk : k ≤ 149) :
    Of ⟨.pack (roundWithAccuracy Format.binary32 .positive m e accuracy)⟩
      (if r = 2 ^ 24 then ⟨2 ^ 23, k - 1⟩ else ⟨r, k⟩) := by
  by_cases hcarry : r = 2 ^ 24
  · have hlog : r.log2 = 23 + 1 := by rw [hcarry, Nat.log2_two_pow]
    have hhalf : (ExtendedMantissa.ofMantissaAndAccuracy r .exact >>> 1).mantissa = 2 ^ 23 := by
      rw [hcarry]
      rfl
    have second := shiftToTargetExponent_eq hlog (by omega : k ≤ 1 + 149) .exact
    rw [show ((1 : Nat) : Int) - k = -(k - 1 : Nat) by omega] at second
    rw [if_pos hcarry, roundWithAccuracy_eq first round second hhalf (by decide)]
    exact of_pack le_rfl (by decide) (by omega) _
  · have hlog : r.log2 = 23 + 0 := (Nat.log2_eq_iff (by omega)).2 (by omega)
    have hsame : (ExtendedMantissa.ofMantissaAndAccuracy r .exact >>> 0).mantissa = r := rfl
    have second := shiftToTargetExponent_eq hlog (by omega : k ≤ 0 + 149) .exact
    rw [show ((0 : Nat) : Int) - k = -(k : Int) by omega] at second
    rw [if_neg hcarry, roundWithAccuracy_eq first round second hsame (by omega)]
    exact of_pack lo (by omega) hk _

/-- Rounding a quotient to single precision. -/
theorem of_round {p q scale : Nat} {x : Single} (hx : round? p q scale = some x) (hq : 0 < q)
    {accuracy : Accuracy} (ha : Extends (.ofMantissaAndAccuracy (p / q) accuracy) p q) :
    Of ⟨.pack (roundWithAccuracy Format.binary32 .positive (p / q) (-scale) accuracy)⟩ x := by
  obtain ⟨extra, hextra⟩ : ∃ extra, (p / q).log2 - 23 = extra := ⟨_, rfl⟩
  have hlo := le_of_round? hx
  have hpos : p / q ≠ 0 := by omega
  have hlog : (p / q).log2 = 23 + extra := by
    have := (Nat.le_log2 hpos).2 hlo
    omega
  obtain ⟨lo, hi⟩ := nearest_bounds hpos hlog
  rw [round?_eq, hextra] at hx
  simp only at hx
  split at hx
  · next hr =>
    obtain ⟨-, hlt, hle⟩ := hr
    have first := shiftToTargetExponent_eq hlog hle accuracy
    rw [show (extra : Int) - scale = -(scale - extra : Nat) by omega] at first
    rw [← Option.some.inj hx]
    exact of_rounded first (ha.shiftRight hq extra).roundedMantissa lo hi (by omega) (by omega)
  · cases hx

theorem of_round_exact {p scale : Nat} {x : Single} (hx : round? p 1 scale = some x) :
    Of ⟨.pack (roundWithAccuracy Format.binary32 .positive p (-scale) .exact)⟩ x := by
  have ha : Extends (.ofMantissaAndAccuracy (p / 1) .exact) p 1 := by
    rw [Nat.div_one]
    exact extends_exact p
  have hr := of_round hx Nat.one_pos ha
  rwa [Nat.div_one] at hr

theorem of_normalize {p scale : Nat} {x : Single} (hx : round? p 1 scale = some x) :
    Of ⟨.pack (UnpackedFloat.normalize Format.binary32 p (-scale) .positive)⟩ x := by
  have hlo : 2 ^ 23 ≤ p := Nat.div_one p ▸ le_of_round? hx
  have hlog : 23 ≤ p.log2 := (Nat.le_log2 (by omega)).2 hlo
  have hkeep : decreaseExponent p (-scale)
      (Format.binary32.targetExponent (totalExponent p (-scale))) = (p, -(scale : Int)) := by
    have htarget : -(scale : Int) ≤
        Format.binary32.targetExponent (totalExponent p (-scale)) := by
      simp only [Format.targetExponent, totalExponent, Format.mantissaBits]
      norm_num
      omega
    have hzero : (-(scale : Int) -
        Format.binary32.targetExponent (totalExponent p (-scale))).toNat = 0 := by omega
    simp [decreaseExponent, hzero]
  have hpos : compare (p : Int) 0 = .gt := Int.compare_eq_gt.2 (by omega)
  rw [UnpackedFloat.normalize, hpos]
  simp only [Int.toNat_natCast]
  rw [UnpackedFloat.round, hkeep]
  exact of_round_exact hx

/-! ## Operations -/

/-- The mantissas of two numbers over the larger power of two. -/
def align (x y : Single) : Nat × Nat :=
  (x.mantissa * 2 ^ (max x.scale y.scale - x.scale),
    y.mantissa * 2 ^ (max x.scale y.scale - y.scale))

/-- The sum of two numbers. -/
def add? (x y : Single) : Option Single :=
  round? ((x.align y).1 + (x.align y).2) 1 (max x.scale y.scale)

/-- The difference of two numbers. -/
def sub? (x y : Single) : Option Single :=
  round? ((x.align y).1 - (x.align y).2) 1 (max x.scale y.scale)

/-- The product of two numbers. -/
def mul? (x y : Single) : Option Single :=
  round? (x.mantissa * y.mantissa) 1 (x.scale + y.scale)

/-- The quotient of two numbers. -/
def div? (x y : Single) : Option Single :=
  if y.scale < x.scale + 24 ∧ x.scale ≤ y.scale + 125 then
    round? (x.mantissa * 2 ^ 24) y.mantissa (x.scale + 24 - y.scale)
  else none

/-- The number of a byte that is not zero. -/
def ofByte? (b : UInt8) : Option Single :=
  let scale := 23 - b.toNat.log2
  round? (b.toNat * 2 ^ scale) 1 scale

/-- The integral part of a number, at most 255. -/
def toByte (x : Single) : Nat := min (x.mantissa / 2 ^ x.scale) 255

namespace Of

variable {f g : Float32} {x y z : Single}

theorem fst_decreaseExponent (m k scale : Nat) :
    (decreaseExponent m (-k) (-scale)).1 = m * 2 ^ (scale - k) := by
  have hshift : (-(k : Int) - -(scale : Int)).toNat = scale - k := by omega
  simp only [decreaseExponent, hshift, Nat.shiftLeft_eq]

theorem min_neg_scale (x y : Single) :
    min (-(x.scale : Int)) (-y.scale) = -(max x.scale y.scale : Nat) := by
  omega

theorem add (hx : Of f x) (hy : Of g y) (hz : x.add? y = some z) : Of (f + g) z := by
  have hsum : f + g = ⟨.pack (UnpackedFloat.normalize Format.binary32
      (((x.align y).1 + (x.align y).2 : Nat) : Int) (-(max x.scale y.scale : Nat)) .positive)⟩ := by
    have h : f + g = ⟨.pack (UnpackedFloat.add Format.binary32 f.toModel.unpack
      g.toModel.unpack)⟩ := rfl
    rw [h, hx.unpack_eq, hy.unpack_eq, UnpackedFloat.add]
    simp only [min_neg_scale, fst_decreaseExponent, Sign.apply, align, Nat.cast_add]
  rw [hsum]
  exact of_normalize hz

theorem sub (hx : Of f x) (hy : Of g y) (hz : x.sub? y = some z) : Of (f - g) z := by
  have hle : (x.align y).2 ≤ (x.align y).1 := by
    have hlo := le_of_round? hz
    rw [Nat.div_one] at hlo
    omega
  have hdiff : f - g = ⟨.pack (UnpackedFloat.normalize Format.binary32
      (((x.align y).1 - (x.align y).2 : Nat) : Int) (-(max x.scale y.scale : Nat)) .positive)⟩ := by
    have h : f - g = ⟨.pack (UnpackedFloat.sub Format.binary32 f.toModel.unpack
      g.toModel.unpack)⟩ := rfl
    rw [Nat.cast_sub hle, h, hx.unpack_eq, hy.unpack_eq, UnpackedFloat.sub]
    simp only [min_neg_scale, fst_decreaseExponent, Sign.apply, align]
  rw [hdiff]
  exact of_normalize hz

theorem mul (hx : Of f x) (hy : Of g y) (hz : x.mul? y = some z) : Of (f * g) z := by
  have hproduct : f * g = ⟨.pack (roundWithAccuracy Format.binary32 .positive
      (x.mantissa * y.mantissa) (-(x.scale + y.scale : Nat)) .exact)⟩ := by
    have h : f * g = ⟨.pack (UnpackedFloat.mul Format.binary32 f.toModel.unpack
      g.toModel.unpack)⟩ := rfl
    have hscale : -(x.scale : Int) + -y.scale = -(x.scale + y.scale : Nat) := by omega
    rw [h, hx.unpack_eq, hy.unpack_eq, UnpackedFloat.mul, hscale]
    rfl
  rw [hproduct]
  exact of_round_exact hz

theorem log2_mantissa (hx : Of f x) : x.mantissa.log2 = 23 :=
  (Nat.log2_eq_iff (by have := hx.le_mantissa; omega)).2 ⟨hx.le_mantissa, hx.mantissa_lt⟩

theorem divCore_eq (hx : Of f x) (hy : Of g y) (hlt : y.scale < x.scale + 24)
    (hle : x.scale ≤ y.scale + 125) :
    divCore Format.binary32 x.mantissa (-x.scale) y.mantissa (-y.scale) =
      (x.mantissa * 2 ^ 24 / y.mantissa, -((x.scale + 24 - y.scale : Nat) : Int),
        accuracyOfFraction (x.mantissa * 2 ^ 24 % y.mantissa) y.mantissa) := by
  have htarget : Format.binary32.targetExponent (totalExponent x.mantissa (-x.scale) -
      totalExponent y.mantissa (-y.scale)) = -((x.scale + 24 - y.scale : Nat) : Int) := by
    simp only [Format.targetExponent, totalExponent, Format.mantissaBits, Format.minExponent,
      hx.log2_mantissa, hy.log2_mantissa]
    norm_num
    omega
  have hmin : min (-(x.scale : Int) - -y.scale) (-((x.scale + 24 - y.scale : Nat) : Int)) =
      -((x.scale + 24 - y.scale : Nat) : Int) := by omega
  have hshift : (-(x.scale : Int) - -y.scale -
      -((x.scale + 24 - y.scale : Nat) : Int)).toNat = 24 := by omega
  simp only [divCore, htarget, hmin, hshift, Nat.shiftLeft_eq]

theorem div (hx : Of f x) (hy : Of g y) (hz : x.div? y = some z) : Of (f / g) z := by
  unfold div? at hz
  split at hz
  · next hscale =>
    have hpos : 0 < y.mantissa := Nat.lt_of_lt_of_le (Nat.two_pow_pos 23) hy.le_mantissa
    have hquotient : f / g = ⟨.pack (roundWithAccuracy Format.binary32 .positive
        (x.mantissa * 2 ^ 24 / y.mantissa) (-((x.scale + 24 - y.scale : Nat) : Int))
        (accuracyOfFraction (x.mantissa * 2 ^ 24 % y.mantissa) y.mantissa))⟩ := by
      have h : f / g = ⟨.pack (UnpackedFloat.div Format.binary32 f.toModel.unpack
        g.toModel.unpack)⟩ := rfl
      rw [h, hx.unpack_eq, hy.unpack_eq, UnpackedFloat.div, hx.divCore_eq hy hscale.1 hscale.2]
      rfl
    rw [hquotient]
    exact of_round hz hpos (extends_fraction _ hpos)
  · cases hz

theorem ofByte {b : UInt8} (hx : ofByte? b = some x) : Of b.toFloat32 x := by
  have hb : b.toNat ≠ 0 := by
    intro hz
    have hlo := le_of_round? hx
    rw [hz, Nat.zero_mul] at hlo
    contradiction
  have hlt : b.toNat.log2 < 8 := (Nat.log2_lt hb).2 b.toNat_lt
  obtain ⟨scale, hs⟩ : ∃ scale, 23 - b.toNat.log2 = scale := ⟨_, rfl⟩
  have hx : round? (b.toNat * 2 ^ scale) 1 scale = some x := by
    rw [← hs]
    exact hx
  have hshift : decreaseExponent b.toNat 0
      (Format.binary32.targetExponent (totalExponent b.toNat 0)) =
      (b.toNat * 2 ^ scale, -(scale : Int)) := by
    have htarget : Format.binary32.targetExponent (totalExponent b.toNat 0) = -(scale : Int) := by
      simp only [Format.targetExponent, totalExponent, Format.mantissaBits, Format.minExponent]
      norm_num
      omega
    have hback : ((0 : Int) - -(scale : Int)).toNat = scale := by omega
    simp only [decreaseExponent, htarget, hback, Nat.shiftLeft_eq, Prod.mk.injEq, true_and]
    omega
  have hbyte : b.toFloat32 = ⟨.pack (roundWithAccuracy Format.binary32 .positive
      (b.toNat * 2 ^ scale) (-scale) .exact)⟩ := by
    have h : b.toFloat32 =
        ⟨.pack (UnpackedFloat.normalize Format.binary32 b.toNat 0 .positive)⟩ := rfl
    have hpos : compare (b.toNat : Int) 0 = .gt := Int.compare_eq_gt.2 (by omega)
    rw [h, UnpackedFloat.normalize, hpos]
    simp only [Int.toNat_natCast]
    rw [UnpackedFloat.round, hshift]
  rw [hbyte]
  exact of_round_exact hx

theorem toNat_toUInt8 (hx : Of f x) : f.toUInt8.toNat = x.toByte := by
  have h : f.toUInt8 = UInt8.ofNatClamp (f.toModel.unpack.toInt 0 255).toNat := rfl
  have hkeep : decreaseExponent x.mantissa (-x.scale) 0 = (x.mantissa, -(x.scale : Int)) := by
    simp [decreaseExponent]
  have hshift : ((0 : Int) - -(x.scale : Int)).toNat = x.scale := by omega
  have hfloor : (shiftToExponent x.mantissa (-x.scale) .exact 0).1.mantissa =
      x.mantissa / 2 ^ x.scale := by
    rw [shiftToExponent]
    simp only [hshift]
    rw [((extends_exact x.mantissa).shiftRight Nat.one_pos x.scale).mantissa, Nat.one_mul]
  have hint : f.toModel.unpack.toInt 0 255 = (x.mantissa / 2 ^ x.scale : Nat) := by
    rw [hx.unpack_eq, toInt, roundToInt, hkeep]
    simp only [Sign.apply]
    rw [← hfloor]
  rw [h, hint, Int.toNat_natCast, toByte, UInt8.ofNatClamp]
  split
  · next hlt =>
    have hlt : x.mantissa / 2 ^ x.scale < 256 := hlt
    rw [UInt8.toNat_ofNatLT]
    omega
  · next hge =>
    have hge : ¬ x.mantissa / 2 ^ x.scale < 256 := hge
    have hmax : (UInt8.ofNatLT (UInt8.size - 1) (by decide)).toNat = 255 := rfl
    rw [hmax]
    omega

end Of

/-! ## Blending alphas -/

/-- The number 255. -/
def full : Single := ⟨255 * 2 ^ 16, 16⟩

theorem of_full : Of (255.0 : Float32) full := ⟨by decide, by decide, by decide, rfl⟩

/-- The share of a byte in the full value. -/
def share? (b : UInt8) : Option Single := do (← ofByte? b).div? full

theorem of_unitShare {b : UInt8} {x : Single} (hx : share? b = some x) : Of (unitShare b) x := by
  obtain ⟨y, hy, hdiv⟩ := Option.bind_eq_some_iff.1 hx
  exact (Of.ofByte hy).div of_full hdiv

/-- The alpha of a blend of two alphas. -/
def blend? (back front : UInt8) : Option Nat := do
  let back ← share? back
  let front ← share? front
  let alpha ← (← back.add? front).sub? (← back.mul? front)
  return (← full.mul? alpha).toByte

theorem toNat_shareByte_blendAlpha {back front : UInt8} {alpha : Nat}
    (h : blend? back front = some alpha) :
    (shareByte (blendAlpha (unitShare back) (unitShare front))).toNat = alpha := by
  simp only [blend?, Option.bind_eq_bind, Option.bind_eq_some_iff, Option.pure_def] at h
  obtain ⟨b, hb, f, hf, sum, hsum, product, hproduct, a, ha, x, hx, h⟩ := h
  have hback := of_unitShare hb
  have hfront := of_unitShare hf
  have halpha : Of (blendAlpha (unitShare back) (unitShare front)) a :=
    (hback.add hfront hsum).sub (hback.mul hfront hproduct) ha
  rw [shareByte, (of_full.mul halpha hx).toNat_toUInt8]
  exact Option.some.inj h

end Single

end Koi
