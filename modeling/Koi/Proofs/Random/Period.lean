import Koi.Proofs.Random.Polynomial
import Koi.Random.Xorshift
import Mathlib.Algebra.Ring.Periodic
import Mathlib.Data.FinEnum
import Mathlib.Data.List.Prime
import Mathlib.Data.UInt
import Mathlib.Dynamics.PeriodicPts.Lemmas
import Mathlib.GroupTheory.Perm.Cycle.Basic
import Mathlib.Tactic.NormNum.Prime

/-!
# The period of the generator

The step of the generator keeps sums of words, so it satisfies a polynomial of degree 64. Modulo
that polynomial the power of the variable with the exponent `2 ^ 64 - 1` is one, and for each prime
divisor `p` of this number the power with the exponent `(2 ^ 64 - 1) / p` differs from one by an
invertible polynomial. So a word other than zero comes back after `2 ^ 64 - 1` steps and not before,
and on its way it passes all of these words.

* `combine_modulus`: the polynomial that the step satisfies.
* `minimalPeriod_scramble`: after how many steps a word comes back.
* `permutation`, `isCycleOn_permutation`: the step as a permutation of the words other than zero,
  which is one cycle.
* `next_full_period`: the cycle, and what follows for the states and the draws of generators.
-/

namespace Koi

open Function (IsPeriodicPt minimalPeriod)
open BitPolynomial

/-! ## Maps of words -/

/-- The highest digit of a number and the others. -/
theorem mod_xor_digit {n k : Nat} (h : n < 2 ^ (k + 1)) :
    (n % 2 ^ k) ^^^ (if n.testBit k then 2 ^ k else 0) = n := by
  apply Nat.eq_of_testBit_eq
  intro i
  rw [Nat.testBit_xor, Nat.testBit_mod_two_pow]
  rcases Nat.lt_trichotomy i k with hi | rfl | hi
  · split <;> simp [hi, Nat.testBit_two_pow_of_ne (Nat.ne_of_gt hi)]
  · cases n.testBit i <;> simp [Nat.testBit_two_pow_self]
  · have above : n.testBit i = false :=
      Nat.testBit_lt_two_pow (Nat.lt_of_lt_of_le h (Nat.pow_le_pow_right (by decide) hi))
    split <;> simp [above, Nat.testBit_two_pow_of_ne (Nat.ne_of_lt hi)]

section
variable {f : UInt64 → UInt64} (hf : IsLinear f)
  (digits : ∀ i < 64, f (UInt64.ofNat (2 ^ i)) = 0)
include hf digits

theorem IsLinear.map_ofNat_eq_zero {k : Nat} (hk : k ≤ 64) {n : Nat} (h : n < 2 ^ k) :
    f (UInt64.ofNat n) = 0 := by
  -- With one digit more, the number is the sum of that digit and a number with fewer digits.
  induction k generalizing n with
  | zero =>
    obtain rfl : n = 0 := by omega
    exact hf.map_zero
  | succ k ih =>
    have rest := ih (by omega) (Nat.mod_lt n (Nat.two_pow_pos k))
    rw [← mod_xor_digit h, UInt64.ofNat_xor, hf, rest, zero_xor]
    split
    · exact digits k hk
    · exact hf.map_zero

/-- A map that keeps sums is zero once it is zero at the words with one digit. -/
theorem IsLinear.eq_zero_of_digits (x : UInt64) : f x = 0 := by
  have h := hf.map_ofNat_eq_zero digits (Nat.le_refl 64) x.toNat_lt
  rwa [UInt64.ofNat_toNat] at h

end

/-- A point has the period `n` if it comes back after `n` steps, and after `n / p` steps for no
    prime divisor `p` of `n`. -/
theorem minimalPeriod_eq_of_forall_prime {α : Type} {f : α → α} {x : α} {n : Nat}
    (back : IsPeriodicPt f n x)
    (sooner : ∀ p, p.Prime → p ∣ n → ¬ IsPeriodicPt f (n / p) x) : minimalPeriod f x = n := by
  obtain ⟨a, ha⟩ := back.minimalPeriod_dvd
  by_contra ne
  -- The period divides `n` with a quotient other than one, so it still divides `n / p` for the
  -- least prime divisor `p` of the quotient.
  have hp : a.minFac.Prime := Nat.minFac_prime (by rintro rfl; exact ne (by rw [ha, mul_one]))
  obtain ⟨b, hb⟩ := a.minFac_dvd
  have split : n = a.minFac * (minimalPeriod f x * b) := by
    rw [ha, Nat.mul_left_comm, ← hb]
  refine sooner a.minFac hp ⟨_, split⟩ ?_
  rw [split, Nat.mul_div_cancel_left _ hp.pos]
  exact (Function.isPeriodicPt_minimalPeriod f x).mul_const b

namespace Xorshift

/-! ## The polynomial of the step -/

theorem isLinear_scramble : IsLinear scramble := by
  have left (c : UInt64) : IsLinear fun x : UInt64 => x ^^^ (x <<< c) :=
    IsLinear.add (fun _ _ => rfl) fun _ _ => UInt64.shiftLeft_xor
  have right (c : UInt64) : IsLinear fun x : UInt64 => x ^^^ (x >>> c) :=
    IsLinear.add (fun _ _ => rfl) fun _ _ => UInt64.shiftRight_xor
  intro x y
  exact (left 17).comp ((right 7).comp (left 13)) x y

/-- The polynomial of degree 64 that the step satisfies. -/
def modulus : Nat := 0x1013ed4a358913201

theorem combine_modulus (x : UInt64) : combine scramble modulus x = 0 := by
  have digits : ∀ i < 64, combine scramble modulus (UInt64.ofNat (2 ^ i)) = 0 := by decide +kernel
  exact (isLinear_combine isLinear_scramble modulus).eq_zero_of_digits digits x

/-- A power of the variable acts as that many steps. -/
theorem combine_power_two (n : Nat) (x : UInt64) :
    combine scramble (power modulus 2 n) x = scramble^[n] x := by
  rw [combine_power isLinear_scramble combine_modulus, funext (combine_two isLinear_scramble)]

/-! ## The period of the step -/

/-- The number of words other than zero. -/
def period : Nat := 2 ^ 64 - 1

/-- The prime divisors `p` of the period. Beside each of them stands the inverse of the polynomial
    by which the power of the variable with the exponent `period / p` differs from one. -/
def inverses : List (Nat × Nat) :=
  [(3, 0xd742ca58f5d785e2), (5, 0xa3f64d1fb612f669), (17, 0x63f43995a1b49645),
    (257, 0x7d573a75b5260c4d), (641, 0x1ead61508d13286), (65537, 0xed7248a2317d33b1),
    (6700417, 0x483b08aa5d3741b5)]

theorem prod_inverses : (inverses.map Prod.fst).prod = period := by decide

theorem prime_of_mem_inverses : ∀ p ∈ inverses.map Prod.fst, p.Prime := by
  simp only [inverses, List.map_cons, List.map_nil, List.forall_mem_cons]
  norm_num

theorem power_period : power modulus 2 period = 1 := by decide +kernel

theorem times_of_mem_inverses : ∀ c ∈ inverses,
    times modulus (power modulus 2 (period / c.1) ^^^ 1) c.2 = 1 := by decide +kernel

theorem exists_inverse {p : Nat} (prime : p.Prime) (dvd : p ∣ period) :
    ∃ q, times modulus (power modulus 2 (period / p) ^^^ 1) q = 1 := by
  rw [← prod_inverses] at dvd
  obtain ⟨p', hm, hp⟩ := prime.prime.dvd_prod_iff.1 dvd
  obtain rfl := (Nat.prime_dvd_prime_iff_eq prime (prime_of_mem_inverses p' hm)).1 hp
  obtain ⟨c, hc, rfl⟩ := List.mem_map.1 hm
  exact ⟨c.2, times_of_mem_inverses c hc⟩

theorem iterate_period (x : UInt64) : scramble^[period] x = x := by
  rw [← combine_power_two, power_period, combine_one isLinear_scramble]

/-- No word but zero comes back after `period / p` steps. -/
theorem eq_zero_of_iterate {p : Nat} (prime : p.Prime) (dvd : p ∣ period) {x : UInt64}
    (h : scramble^[period / p] x = x) : x = 0 := by
  have hs := isLinear_scramble
  obtain ⟨q, hq⟩ := exists_inverse prime dvd
  -- What the difference of `x` and its iterate is, `q` undoes.
  calc x = combine scramble (times modulus (power modulus 2 (period / p) ^^^ 1) q) x := by
        rw [hq, combine_one hs]
    _ = combine scramble q (scramble^[period / p] x ^^^ x) := by
        rw [combine_times hs combine_modulus, combine_xor hs, combine_power_two, combine_one hs]
    _ = 0 := by rw [h, LawfulXor.xor_self, (isLinear_combine hs q).map_zero]

/-- A word other than zero comes back after `period` steps, and not before. -/
theorem minimalPeriod_scramble {x : UInt64} (hx : x ≠ 0) : minimalPeriod scramble x = period :=
  minimalPeriod_eq_of_forall_prime (iterate_period x)
    fun _ prime dvd h => hx (eq_zero_of_iterate prime dvd h)

/-! ## The cycle of the words other than zero -/

theorem scramble_injective : Function.Injective scramble := by
  intro x y h
  have pos : period = (period - 1) + 1 := by decide
  rw [← iterate_period x, ← iterate_period y, pos, Function.iterate_succ_apply,
    Function.iterate_succ_apply, h]

/-- Zero is left alone by the step, so no other word ends there. -/
theorem iterate_ne_zero {x : UInt64} (hx : x ≠ 0) (n : Nat) : scramble^[n] x ≠ 0 := by
  intro h
  have zero : scramble^[n] 0 = 0 := Function.iterate_fixed isLinear_scramble.map_zero n
  exact hx (scramble_injective.iterate n (h.trans zero.symm))

/-- The step on the words other than zero. -/
def step (x : {x : UInt64 // x ≠ 0}) : {x : UInt64 // x ≠ 0} :=
  ⟨scramble x, iterate_ne_zero x.2 1⟩

theorem step_injective : Function.Injective step :=
  fun _ _ h => Subtype.ext (scramble_injective (congrArg Subtype.val h))

/-- The step as a permutation of the words other than zero. -/
noncomputable def permutation : Equiv.Perm {x : UInt64 // x ≠ 0} :=
  Equiv.ofBijective step (Finite.injective_iff_bijective.1 step_injective)

theorem coe_permutation (x : {x : UInt64 // x ≠ 0}) : (permutation x : UInt64) = scramble x := rfl

theorem coe_iterate_permutation (x : {x : UInt64 // x ≠ 0}) (n : Nat) :
    (permutation^[n] x : UInt64) = scramble^[n] x :=
  (Function.Semiconj.iterate_right coe_permutation n) x

theorem minimalPeriod_permutation (x : {x : UInt64 // x ≠ 0}) :
    minimalPeriod permutation x = period := by
  rw [← minimalPeriod_scramble x.2, Function.minimalPeriod_eq_minimalPeriod_iff]
  intro n
  rw [IsPeriodicPt, Function.IsFixedPt, Subtype.ext_iff, coe_iterate_permutation]
  rfl

theorem card_nonzero : Nat.card {x : UInt64 // x ≠ 0} = period := by
  rw [Nat.card_eq_fintype_card, Fintype.card_subtype_compl, Fintype.card_subtype_eq,
    ← FinEnum.card_eq_fintypeCard, FinEnum.card_UInt64, period]

/-- From each word the step leads to every other one: on one round it passes different words, and
    there are no more of them than steps. -/
theorem exists_iterate_permutation_eq (x y : {x : UInt64 // x ≠ 0}) :
    ∃ n, permutation^[n] x = y := by
  have inj : Function.Injective fun i : Fin period => permutation^[i] x := by
    intro i j h
    refine Fin.ext (Function.iterate_injOn_Iio_minimalPeriod ?_ ?_ h) <;>
    · rw [minimalPeriod_permutation]
      exact Fin.isLt _
  obtain ⟨i, hi⟩ := (inj.bijective_of_nat_card_le (by rw [card_nonzero, Nat.card_fin])).2 y
  exact ⟨i, hi⟩

theorem isCycleOn_permutation : permutation.IsCycleOn Set.univ := by
  refine ⟨Set.bijOn_univ.2 permutation.bijective, fun x _ y _ => ?_⟩
  obtain ⟨n, hn⟩ := exists_iterate_permutation_eq x y
  exact ⟨n, by rw [zpow_natCast, ← Equiv.Perm.iterate_eq_pow, hn]⟩

/-! ## States and draws -/

/-- The generator after some draws. -/
def after (g : Xorshift) (n : Nat) : Xorshift := (fun g => g.next.2)^[n] g

/-- The value of one draw, where the first one has the number zero. -/
def draw (g : Xorshift) (n : Nat) : UInt64 := (g.after n).next.1

theorem state_after (g : Xorshift) (n : Nat) : (g.after n).state = scramble^[n] g.state :=
  Function.Semiconj.iterate_right (f := Xorshift.state) (fun _ => rfl) n g

theorem draw_eq (g : Xorshift) (n : Nat) : g.draw n = scramble^[n] (scramble g.state) := by
  rw [draw, next_fst, state_after, ← Function.iterate_succ_apply' scramble,
    Function.iterate_succ_apply]

theorem state_ofSeed_of_ne_zero {seed : UInt64} (h : seed ≠ 0) : (ofSeed seed).state = seed :=
  if_neg h

theorem state_ofSeed_ne_zero (seed : UInt64) : (ofSeed seed).state ≠ 0 := by
  by_cases h : seed = 0
  · subst h
    decide
  · rwa [state_ofSeed_of_ne_zero h]

theorem draw_ne_zero (seed : UInt64) (n : Nat) : (ofSeed seed).draw n ≠ 0 := by
  rw [draw_eq, ← Function.iterate_succ_apply]
  exact iterate_ne_zero (state_ofSeed_ne_zero seed) (n + 1)

theorem injOn_draw (seed : UInt64) : Set.InjOn (ofSeed seed).draw (Set.Iio period) := by
  intro m hm n hn h
  have first : scramble (ofSeed seed).state ≠ 0 := iterate_ne_zero (state_ofSeed_ne_zero seed) 1
  rw [← minimalPeriod_scramble first] at hm hn
  rw [draw_eq, draw_eq] at h
  exact Function.iterate_injOn_Iio_minimalPeriod hm hn h

theorem periodic_draw (g : Xorshift) : Function.Periodic g.draw period := by
  intro n
  rw [draw_eq, draw_eq, Function.iterate_add_apply, iterate_period]

theorem draw_ne_draw {seed other : UInt64} (hs : seed ≠ 0) (ho : other ≠ 0) (ne : seed ≠ other)
    (n : Nat) : (ofSeed seed).draw n ≠ (ofSeed other).draw n := by
  intro h
  rw [draw_eq, draw_eq, state_ofSeed_of_ne_zero hs, state_ofSeed_of_ne_zero ho] at h
  exact ne (scramble_injective (scramble_injective.iterate n h))

/-- The state of a generator passes through all words other than zero in one cycle. So for every
    seed, zero included, no state and no draw is zero, the first `2 ^ 64 - 1` draws are different
    and then come again in the same order; and generators for different seeds, neither of them zero,
    differ in every draw. -/
theorem next_full_period :
    (∃ σ : Equiv.Perm {x : UInt64 // x ≠ 0},
      (∀ x, (σ x : UInt64) = (next ⟨x⟩).2.state) ∧
      σ.IsCycleOn Set.univ ∧ ∀ x, minimalPeriod σ x = 2 ^ 64 - 1) ∧
    ∀ seed : UInt64,
      (∀ n, ((ofSeed seed).after n).state ≠ 0 ∧ (ofSeed seed).draw n ≠ 0) ∧
      Set.InjOn (ofSeed seed).draw (Set.Iio (2 ^ 64 - 1)) ∧
      Function.Periodic (ofSeed seed).draw (2 ^ 64 - 1) ∧
      ∀ other, seed ≠ 0 → other ≠ 0 → seed ≠ other →
        ∀ n, (ofSeed seed).draw n ≠ (ofSeed other).draw n := by
  refine ⟨⟨permutation, coe_permutation, isCycleOn_permutation, minimalPeriod_permutation⟩,
    fun seed => ⟨fun n => ⟨?_, draw_ne_zero seed n⟩, injOn_draw seed, periodic_draw _,
      fun other hs ho ne => draw_ne_draw hs ho ne⟩⟩
  rw [state_after]
  exact iterate_ne_zero (state_ofSeed_ne_zero seed) n

/-- For the seed 42 the first draw comes again after a whole round, for the seed zero it differs
    from the last draw of the round, and for two seeds a very late draw differs. -/
theorem next_full_period_rounds :
    (ofSeed 42).draw (2 ^ 64 - 1) = 45454805674 ∧
    (ofSeed 0).draw 0 ≠ (ofSeed 0).draw (2 ^ 64 - 2) ∧
    (42 : UInt64) ≠ 0 ∧ (77 : UInt64) ≠ 0 ∧ (42 : UInt64) ≠ 77 ∧
    (ofSeed 42).draw (10 ^ 18) ≠ (ofSeed 77).draw (10 ^ 18) := by
  obtain ⟨-, different, -⟩ := next_full_period.2 0
  obtain ⟨-, -, again, apart⟩ := next_full_period.2 42
  have first : (ofSeed 42).draw 0 = 45454805674 := by decide
  refine ⟨?_, ?_, by decide, by decide, by decide,
    apart 77 (by decide) (by decide) (by decide) (10 ^ 18)⟩
  · rw [← first, ← again 0, Nat.zero_add]
  · exact (different.ne_iff (by decide) (by decide)).2 (by decide)

end Xorshift

end Koi
