import Koi.Proofs.Generation.Checked
import Koi.Proofs.Token

/-!
# Which tokens share their seeds

The digits of a token id are cut into four pieces, and each piece is read into a seed that has
63 bits. A piece may have any number of digits, most of them zeros. It is read digit by digit: a
number that is about to pass the largest seed stays there.

* `Decimal.read?_eq`: reading with a bound fails exactly on values above the bound.
* `Checked.seeds_eq`: cutting stays within the digits, and reading comes to `TokenId.pieceSeed`.
* `TokenId.append_pieces`, `TokenId.length_pieces`: the pieces are the digits, cut in quarters.
* `TokenId.seeds_eq_iff`: two tokens of one length share their seeds iff their pieces are the same
  but for those that are too large.
* `TokenId.seeds_partition`: all of it.
-/

namespace Koi

/-! ## Reading with a bound -/

namespace Decimal

/-- A number with one more digit. Neither ten times the number nor the sum may pass the bound. -/
def append? (bound n : Nat) (digit : Char) : Option Nat :=
  let tens := 10 * n
  let sum := tens + (digit.toNat - '0'.toNat)
  if tens ≤ bound ∧ sum ≤ bound then some sum else none

/-- Reads digits one after another into a number that never passes the bound. No digits are no
    number. -/
def read? (bound : Nat) (digits : List Char) : Option Nat :=
  if digits = [] then none else digits.foldlM (append? bound) 0

theorem append?_eq (bound n : Nat) (digit : Char) :
    append? bound n digit =
      if 10 * n + (digit.toNat - '0'.toNat) ≤ bound then
        some (10 * n + (digit.toNat - '0'.toNat))
      else none :=
  if_congr (and_iff_right_of_imp fun h => Nat.le_trans (Nat.le_add_right _ _) h) rfl rfl

/-- Digits that follow a number make it no smaller. -/
theorem le_ofDigitChars (digits : List Char) (n : Nat) : n ≤ Nat.ofDigitChars 10 digits n := by
  rw [Nat.ofDigitChars_eq_ofDigitChars_zero]
  calc n = 1 * n := (Nat.one_mul n).symm
    _ ≤ 10 ^ digits.length * n := Nat.mul_le_mul_right n (Nat.pow_pos (by decide))
    _ ≤ _ := Nat.le_add_right _ _

theorem foldlM_append?_eq {bound n : Nat} (h : n ≤ bound) (digits : List Char) :
    digits.foldlM (append? bound) n =
      if Nat.ofDigitChars 10 digits n ≤ bound then some (Nat.ofDigitChars 10 digits n)
      else none := by
  induction digits generalizing n with
  | nil => simp [h]
  | cons digit rest ih =>
    rw [List.foldlM_cons, append?_eq, Nat.ofDigitChars_cons]
    by_cases hd : 10 * n + (digit.toNat - '0'.toNat) ≤ bound
    · rw [if_pos hd]
      exact ih hd
    · -- The number only grows from here.
      have hr := le_ofDigitChars rest (10 * n + (digit.toNat - '0'.toNat))
      rw [if_neg hd, if_neg (by omega)]
      rfl

/-- Zeros in front do no harm, however many: only the value counts. -/
theorem read?_eq (bound : Nat) {digits : List Char} (h : digits ≠ []) :
    read? bound digits = if value digits ≤ bound then some (value digits) else none := by
  rw [read?, if_neg h, foldlM_append?_eq (Nat.zero_le bound), value_eq_ofDigitChars]

example : read? 99 "000099".toList = some 99 ∧ read? 99 "100".toList = none := by decide

end Decimal

/-! ## Cutting with every place checked -/

namespace Checked

/-- The members from one place up to and without another. -/
def slice {α : Type} (items : List α) (start stop : Nat) : Except Breakdown (List α) :=
  if start ≤ stop ∧ stop ≤ items.length then .ok ((items.take stop).drop start)
  else .error (.outOfRange stop items.length)

/-- The four pieces of a text. -/
def pieces (digits : List Char) : Except Breakdown (Quarters (List Char)) := do
  let quarter := digits.length / 4
  return ⟨← slice digits 0 quarter, ← slice digits quarter (2 * quarter),
    ← slice digits (2 * quarter) (3 * quarter), ← slice digits (3 * quarter) digits.length⟩

/-- A piece as a seed. No digits are zero, and a number that cannot be read is taken to be too
    large. -/
def pieceSeed (piece : List Char) : UInt64 :=
  if piece = [] then 0 else ((Decimal.read? TokenId.maxSeed piece).getD TokenId.maxSeed).toUInt64

/-- The four seeds of a text. -/
def seeds (digits : List Char) : Except Breakdown (Quarters UInt64) := do
  return (← pieces digits).map pieceSeed

theorem slice_eq {α : Type} {items : List α} {start stop : Nat} (order : start ≤ stop)
    (inside : stop ≤ items.length) : slice items start stop = pure ((items.take stop).drop start) :=
  if_pos ⟨order, inside⟩

theorem pieceSeed_eq (piece : List Char) : pieceSeed piece = TokenId.pieceSeed piece := by
  unfold pieceSeed TokenId.pieceSeed
  by_cases empty : piece = []
  · subst empty
    rfl
  · rw [if_neg empty, Decimal.read?_eq _ empty]
    by_cases h : Decimal.value piece ≤ TokenId.maxSeed
    · rw [if_pos h, Nat.min_eq_left h, Option.getD_some]
    · rw [if_neg h, Nat.min_eq_right (by omega), Option.getD_none]

theorem pieces_eq (token : TokenId) : pieces token.digits = .ok token.pieces := by
  have h := Nat.div_mul_le_self token.digits.length 4
  simp only [pieces, TokenId.pieces]
  generalize token.digits.length / 4 = quarter at h ⊢
  have second : 2 * quarter - quarter = quarter := by omega
  have third : 3 * quarter - 2 * quarter = quarter := by omega
  rw [slice_eq (by omega) (by omega), slice_eq (by omega) (by omega),
    slice_eq (by omega) (by omega), slice_eq (by omega) (by omega)]
  simp only [pure_bind, List.drop_zero, List.take_length, List.drop_take, second, third]
  rfl

theorem seeds_eq (token : TokenId) : seeds token.digits = .ok token.seeds := by
  have h : pieceSeed = TokenId.pieceSeed := funext pieceSeed_eq
  rw [seeds, pieces_eq, h]
  rfl

end Checked

/-! ## The four choices -/

/-- What one of the four seeds decides about. -/
inductive Choice where
  | variety
  | counts
  | layers
  | colors
  deriving DecidableEq, Repr

namespace Quarters

variable {α β : Type}

/-- The part for a choice. -/
def part (q : Quarters α) : Choice → α
  | .variety => q.variety
  | .counts => q.counts
  | .layers => q.layers
  | .colors => q.colors

@[simp] theorem part_map (f : α → β) (q : Quarters α) (choice : Choice) :
    (q.map f).part choice = f (q.part choice) := by
  cases choice <;> rfl

theorem ext_part_iff {q r : Quarters α} : q = r ↔ ∀ choice, q.part choice = r.part choice := by
  constructor
  · rintro rfl choice
    rfl
  · intro h
    obtain ⟨variety, counts, layers, colors⟩ := q
    obtain rfl : variety = r.variety := h .variety
    obtain rfl : counts = r.counts := h .counts
    obtain rfl : layers = r.layers := h .layers
    obtain rfl : colors = r.colors := h .colors
    rfl

end Quarters

namespace TokenId

open Decimal (IsNumeral)

/-! ## The pieces of a token -/

/-- The number of digits in a piece: a quarter, rounded down, and the rest for the last one. -/
def pieceLength (total : Nat) : Choice → Nat
  | .colors => total - 3 * (total / 4)
  | _ => total / 4

theorem length_pieces (token : TokenId) (choice : Choice) :
    (token.pieces.part choice).length = pieceLength token.digits.length choice := by
  have h := Nat.div_mul_le_self token.digits.length 4
  cases choice <;>
    simp only [pieces, Quarters.part, pieceLength, List.length_take, List.length_drop] <;> omega

theorem append_pieces (token : TokenId) :
    token.pieces.variety ++ token.pieces.counts ++ token.pieces.layers ++ token.pieces.colors =
      token.digits := by
  simp only [pieces]
  generalize token.digits.length / 4 = quarter
  have second : quarter + quarter = 2 * quarter := by omega
  have third : 2 * quarter + quarter = 3 * quarter := by omega
  rw [← List.take_add, second, ← List.take_add, third, List.take_append_drop]

theorem isNumeral_digits (token : TokenId) : IsNumeral token.digits :=
  ((wellFormed_iff token.text).1 token.wellFormed).2.1

theorem isNumeral_pieces (token : TokenId) (choice : Choice) :
    IsNumeral (token.pieces.part choice) := by
  intro c hc
  apply token.isNumeral_digits
  rw [← token.append_pieces]
  cases choice <;> simp only [Quarters.part] at hc <;> simp [hc]

theorem eq_of_digits_eq {token other : TokenId} (h : token.digits = other.digits) :
    token = other := by
  obtain ⟨text, _⟩ := token
  obtain ⟨text', _⟩ := other
  obtain rfl : text = text' := String.toList_injective h
  rfl

/-- The pieces make up the token. -/
theorem eq_of_pieces_eq {token other : TokenId} (h : token.pieces = other.pieces) :
    token = other :=
  eq_of_digits_eq (by rw [← token.append_pieces, ← other.append_pieces, h])

/-! ## The seed of a piece -/

theorem toNat_pieceSeed (piece : List Char) :
    (pieceSeed piece).toNat = min (Decimal.value piece) (2 ^ 63 - 1) := by
  have h : min (Decimal.value piece) maxSeed < 2 ^ 64 :=
    Nat.lt_of_le_of_lt (Nat.min_le_right _ _) (by decide)
  rw [pieceSeed, Nat.toUInt64_eq, UInt64.toNat_ofNat', Nat.mod_eq_of_lt h]
  rfl

/-- Different pieces of one length share their seed only where both values reach the largest
    seed. -/
theorem pieceSeed_eq_iff {a b : List Char} (ha : IsNumeral a) (hb : IsNumeral b)
    (length : a.length = b.length) : pieceSeed a = pieceSeed b ↔
      a = b ∨ 2 ^ 63 - 1 ≤ Decimal.value a ∧ 2 ^ 63 - 1 ≤ Decimal.value b := by
  rw [← UInt64.toNat_inj, toNat_pieceSeed, toNat_pieceSeed]
  constructor
  · intro h
    by_cases same : Decimal.value a = Decimal.value b
    · exact .inl (Decimal.eq_of_value_eq ha hb length same)
    · exact .inr (by omega)
  · rintro (rfl | ⟨h₁, h₂⟩)
    · rfl
    · rw [Nat.min_eq_right h₁, Nat.min_eq_right h₂]

/-! ## Two tokens -/

theorem seeds_eq_iff {token other : TokenId}
    (length : token.digits.length = other.digits.length) : token.seeds = other.seeds ↔
      ∀ choice, token.pieces.part choice = other.pieces.part choice ∨
        2 ^ 63 - 1 ≤ Decimal.value (token.pieces.part choice) ∧
          2 ^ 63 - 1 ≤ Decimal.value (other.pieces.part choice) := by
  rw [Quarters.ext_part_iff]
  apply forall_congr'
  intro choice
  rw [seeds, seeds, Quarters.part_map, Quarters.part_map]
  apply pieceSeed_eq_iff (token.isNumeral_pieces choice) (other.isNumeral_pieces choice)
  rw [length_pieces, length_pieces, length]

/-- Seeds below the largest one determine a token of known length. -/
theorem seeds_eq_iff_of_small {token other : TokenId}
    (length : token.digits.length = other.digits.length)
    (small : ∀ choice, (token.seeds.part choice).toNat < 2 ^ 63 - 1) :
    token.seeds = other.seeds ↔ token = other := by
  constructor
  · intro h
    apply eq_of_pieces_eq
    rw [Quarters.ext_part_iff]
    intro choice
    rcases (seeds_eq_iff length).1 h choice with same | ⟨large, -⟩
    · exact same
    · have hs := small choice
      rw [seeds, Quarters.part_map, toNat_pieceSeed, Nat.min_eq_right large] at hs
      exact absurd hs (Nat.lt_irrefl _)
  · rintro rfl
    rfl

/-- The digits of a token are cut, without leaving them, into three pieces of a quarter of the
    length and the rest, and each piece is read into its value or the largest seed, whichever is
    smaller; without digits the value is zero. Two tokens of one length have the same seeds exactly
    if in each place the pieces are the same or both reach the largest seed. So if no seed does, the
    length and the seeds determine the token. -/
theorem seeds_partition (token : TokenId) :
    Checked.pieces token.digits = .ok token.pieces ∧
    Checked.seeds token.digits = .ok token.seeds ∧
    token.pieces.variety ++ token.pieces.counts ++ token.pieces.layers ++ token.pieces.colors =
      token.digits ∧
    (token.pieces.variety.length = token.digits.length / 4 ∧
      token.pieces.counts.length = token.digits.length / 4 ∧
      token.pieces.layers.length = token.digits.length / 4 ∧
      token.pieces.colors.length = token.digits.length - 3 * (token.digits.length / 4)) ∧
    (∀ choice, (token.seeds.part choice).toNat =
      min (Decimal.value (token.pieces.part choice)) (2 ^ 63 - 1)) ∧
    Decimal.value [] = 0 ∧
    ∀ other : TokenId, token.digits.length = other.digits.length →
      (token.seeds = other.seeds ↔
        ∀ choice, token.pieces.part choice = other.pieces.part choice ∨
          2 ^ 63 - 1 ≤ Decimal.value (token.pieces.part choice) ∧
            2 ^ 63 - 1 ≤ Decimal.value (other.pieces.part choice)) ∧
      ((∀ choice, (token.seeds.part choice).toNat < 2 ^ 63 - 1) →
        (token.seeds = other.seeds ↔ token = other)) := by
  refine ⟨Checked.pieces_eq token, Checked.seeds_eq token, token.append_pieces,
    ⟨token.length_pieces .variety, token.length_pieces .counts, token.length_pieces .layers,
      token.length_pieces .colors⟩, ?_, rfl, ?_⟩
  · intro choice
    rw [seeds, Quarters.part_map, toNat_pieceSeed]
  · intro other length
    exact ⟨seeds_eq_iff length, seeds_eq_iff_of_small length⟩

/-- Two tokens that share their seeds, the last piece of one being the largest seed and of the other
    a larger number; and two with many zeros in each piece, which do not. -/
theorem seeds_partition_large_piece :
    ∃ t u v w : TokenId,
      t.text = "0000000000000001000000000000000200000000000000039223372036854775807" ∧
      u.text = "0000000000000001000000000000000200000000000000039999999999999999999" ∧
      v.text = "00000000000000000001000000000000000000020000000000000000000300000000000000000004" ∧
      w.text = "00000000000000000001000000000000000000020000000000000000000300000000000000000005" ∧
      t ≠ u ∧ t.seeds = u.seeds ∧
      (∀ choice, (v.seeds.part choice).toNat < 2 ^ 63 - 1) ∧ v.seeds ≠ w.seeds := by
  let t : TokenId :=
    ⟨"0000000000000001000000000000000200000000000000039223372036854775807", by decide +kernel⟩
  let u : TokenId :=
    ⟨"0000000000000001000000000000000200000000000000039999999999999999999", by decide +kernel⟩
  let v : TokenId :=
    ⟨"00000000000000000001000000000000000000020000000000000000000300000000000000000004",
      by decide +kernel⟩
  let w : TokenId :=
    ⟨"00000000000000000001000000000000000000020000000000000000000300000000000000000005",
      by decide +kernel⟩
  obtain ⟨-, -, -, -, -, -, shared⟩ := seeds_partition t
  obtain ⟨-, -, -, -, -, -, distinct⟩ := seeds_partition v
  have pieces : t.digits.length = u.digits.length ∧ t.pieces.variety = u.pieces.variety ∧
      t.pieces.counts = u.pieces.counts ∧ t.pieces.layers = u.pieces.layers ∧
      2 ^ 63 - 1 ≤ Decimal.value t.pieces.colors ∧
      2 ^ 63 - 1 ≤ Decimal.value u.pieces.colors := by decide +kernel
  have seeds : v.digits.length = w.digits.length ∧ v.seeds.variety = 1 ∧ v.seeds.counts = 2 ∧
      v.seeds.layers = 3 ∧ v.seeds.colors = 4 := by decide +kernel
  obtain ⟨length, variety, counts, layers, large⟩ := pieces
  obtain ⟨length', one, two, three, four⟩ := seeds
  have small : ∀ choice, (v.seeds.part choice).toNat < 2 ^ 63 - 1 := by
    intro choice
    cases choice <;> simp [Quarters.part, one, two, three, four]
  refine ⟨t, u, v, w, rfl, rfl, rfl, rfl, fun h => ?_, (shared u length).1.2 fun choice => ?_,
    small, fun h => ?_⟩
  · exact absurd (congrArg TokenId.text h) (by decide)
  · cases choice with
    | variety => exact .inl variety
    | counts => exact .inl counts
    | layers => exact .inl layers
    | colors => exact .inr large
  · exact absurd (congrArg TokenId.text (((distinct w length').2 small).1 h)) (by decide)

end TokenId

end Koi
