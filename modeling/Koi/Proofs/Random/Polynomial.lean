import Mathlib.Data.LawfulXor.Basic
import Mathlib.Data.Nat.Bitwise

/-!
# Polynomials in a linear step

A number stands for the polynomial over the field of two elements whose coefficients are its binary
digits. A step that keeps sums can be put in for the variable: the polynomial then is the sum of
those iterates of the step that its coefficients choose. Once the step satisfies a polynomial `m`,
polynomials are computed modulo `m`, and a large number of steps is a power of the variable, found
by repeated squaring.

* `IsLinear`: steps that keep sums, bit by bit modulo two.
* `BitPolynomial.combine`: a polynomial in a step.
* `BitPolynomial.times`, `BitPolynomial.power`: arithmetic modulo a polynomial.
* `combine_times`, `combine_power`: a product acts as one factor after the other, a power as a
  number of steps.
-/

namespace Koi

variable {α : Type} [XorOp α]

/-- Keeps sums, which are taken bit by bit modulo two. -/
def IsLinear (f : α → α) : Prop := ∀ x y, f (x ^^^ y) = f x ^^^ f y

theorem IsLinear.comp {f g : α → α} (hg : IsLinear g) (hf : IsLinear f) : IsLinear (g ∘ f) := by
  intro x y
  show g (f (x ^^^ y)) = g (f x) ^^^ g (f y)
  rw [hf, hg]

variable [Zero α]

section
variable [LawfulXor α]

theorem xor_xor_xor_comm (a b c d : α) : (a ^^^ b) ^^^ (c ^^^ d) = (a ^^^ c) ^^^ (b ^^^ d) := by
  rw [LawfulXor.xor_assoc, LawfulXor.xor_assoc, ← LawfulXor.xor_assoc b, LawfulXor.xor_comm b,
    LawfulXor.xor_assoc]

theorem IsLinear.map_zero {f : α → α} (hf : IsLinear f) : f 0 = 0 := by
  have h := hf 0 0
  rwa [LawfulXor.xor_self, LawfulXor.xor_self] at h

theorem IsLinear.add {f g : α → α} (hf : IsLinear f) (hg : IsLinear g) :
    IsLinear fun x => f x ^^^ g x := by
  intro x y
  show f (x ^^^ y) ^^^ g (x ^^^ y) = (f x ^^^ g x) ^^^ (f y ^^^ g y)
  rw [hf, hg, xor_xor_xor_comm]

end

namespace BitPolynomial

/-! ## Polynomials in a step -/

/-- The sum of the iterates `f^[i] x` over all `i` for which `p` has the digit of `2 ^ i`. -/
def combine (f : α → α) (p : Nat) (x : α) : α :=
  if p = 0 then 0 else (if p % 2 = 1 then x else 0) ^^^ f (combine f (p / 2) x)

theorem combine_zero (f : α → α) (x : α) : combine f 0 x = 0 := by
  rw [combine, if_pos rfl]

section
variable [LawfulXor α] {f : α → α} (hf : IsLinear f)
include hf

/-- The lowest coefficient and the others. -/
theorem combine_eq (p : Nat) (x : α) :
    combine f p x = (if p % 2 = 1 then x else 0) ^^^ f (combine f (p / 2) x) := by
  by_cases h : p = 0
  · subst h
    simp [combine_zero, hf.map_zero]
  · rw [combine, if_neg h]

theorem combine_one (x : α) : combine f 1 x = x := by
  rw [combine_eq hf, if_pos rfl, combine_zero, hf.map_zero, xor_zero]

theorem combine_double (p : Nat) (x : α) : combine f (2 * p) x = f (combine f p x) := by
  rw [combine_eq hf, if_neg (by omega), zero_xor, Nat.mul_div_cancel_left p (by decide)]

theorem combine_two (x : α) : combine f 2 x = f x := by
  rw [combine_double hf 1, combine_one hf]

/-- Polynomials are added digit by digit, without a carry. -/
theorem combine_xor (p q : Nat) (x : α) :
    combine f (p ^^^ q) x = combine f p x ^^^ combine f q x := by
  fun_induction combine f p x generalizing q with
  | case1 => rw [zero_xor, zero_xor]
  | case2 p _ ih =>
    -- The lowest coefficients are added modulo two, and the step keeps the sum of the others.
    have lowest : (if (p ^^^ q) % 2 = 1 then x else 0) =
        (if p % 2 = 1 then x else 0) ^^^ (if q % 2 = 1 then x else 0) := by
      rw [if_congr Nat.xor_mod_two_eq_one rfl rfl]
      by_cases hp : p % 2 = 1 <;> by_cases hq : q % 2 = 1 <;> simp [hp, hq]
    rw [combine_eq hf (p ^^^ q), combine_eq hf q, Nat.xor_div_two, ih, hf, lowest,
      xor_xor_xor_comm]

theorem isLinear_combine (p : Nat) : IsLinear (combine f p) := by
  intro x y
  fun_induction combine f p x with
  | case1 => rw [combine_zero, combine_zero, xor_zero]
  | case2 p _ ih =>
    rw [combine_eq hf p, combine_eq hf p y, ih, hf]
    by_cases hp : p % 2 = 1
    · simp only [hp, if_true, xor_xor_xor_comm]
    · simp only [hp, if_false, zero_xor]

end

/-! ## Arithmetic modulo a polynomial -/

/-- The product with the variable, modulo `m`. -/
def shift (m p : Nat) : Nat :=
  if (2 * p).testBit m.log2 then 2 * p ^^^ m else 2 * p

/-- The product modulo `m`. -/
def times (m p q : Nat) : Nat :=
  if q = 0 then 0 else shift m (times m p (q / 2)) ^^^ (if q % 2 = 1 then p else 0)

/-- The power modulo `m`. -/
def power (m p n : Nat) : Nat :=
  if n = 0 then 1
  else
    let half := power m p (n / 2)
    if n % 2 = 1 then times m (times m half half) p else times m half half

section
variable [LawfulXor α] {f : α → α} {m : Nat} (hf : IsLinear f) (hm : ∀ x, combine f m x = 0)
include hf hm

theorem combine_shift (p : Nat) (x : α) : combine f (shift m p) x = f (combine f p x) := by
  unfold shift
  split
  · rw [combine_xor hf, hm, xor_zero, combine_double hf]
  · rw [combine_double hf]

/-- A product acts as one factor after the other. -/
theorem combine_times (p q : Nat) (x : α) :
    combine f (times m p q) x = combine f q (combine f p x) := by
  fun_induction times m p q with
  | case1 => rw [combine_zero, combine_zero]
  | case2 q _ ih =>
    rw [combine_xor hf, combine_shift hf hm, ih, combine_eq hf q, LawfulXor.xor_comm]
    by_cases hq : q % 2 = 1
    · simp only [hq, if_true]
    · simp only [hq, if_false, combine_zero]

/-- A power acts as a number of steps. -/
theorem combine_power (p n : Nat) (x : α) :
    combine f (power m p n) x = (combine f p)^[n] x := by
  fun_induction power m p n generalizing x with
  | case1 => rw [combine_one hf, Function.iterate_zero, id]
  | case2 n _ half odd ih =>
    rw [combine_times hf hm, combine_times hf hm, ih, ih, ← Function.iterate_add_apply,
      ← Function.iterate_succ_apply' (combine f p)]
    congr 1
    omega
  | case3 n _ half even ih =>
    rw [combine_times hf hm, ih, ih, ← Function.iterate_add_apply]
    congr 1
    omega

end

end BitPolynomial

end Koi
