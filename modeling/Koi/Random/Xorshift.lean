/-!
# The 64-bit xorshift generator

A generator holds one 64-bit word. Each draw replaces the word by a scrambled one, which is also
the draw's value.

* `Xorshift.next`: a full word.
* `Xorshift.nextHalf`: the upper 63 bits of a word.
* `Xorshift.below`: a word reduced below a positive bound; `Xorshift.below?` takes any bound.
-/

namespace Koi

/-- A pseudo-random generator with one word of state (`Xorshift64`). -/
structure Xorshift where
  state : UInt64
  deriving DecidableEq, Repr

namespace Xorshift

/-- The state used in place of a seed of zero, from which the generator would never leave zero
    (`FALLBACK_SEED`). -/
def fallback : UInt64 := 0x5EEDDEADBEEFCAFE

/-- The generator for a seed (`new`). -/
def ofSeed (seed : UInt64) : Xorshift :=
  ⟨if seed = 0 then fallback else seed⟩

/-- The word that follows `x` in `next_u64`. -/
def scramble (x : UInt64) : UInt64 :=
  let x := x ^^^ (x <<< 13)
  let x := x ^^^ (x >>> 7)
  x ^^^ (x <<< 17)

/-- The next word, and the generator after the draw (`next_u64`). -/
def next (g : Xorshift) : UInt64 × Xorshift :=
  let x := scramble g.state
  (x, ⟨x⟩)

/-- The upper 63 bits of the next word (`next_int`). -/
def nextHalf (g : Xorshift) : UInt64 × Xorshift :=
  let (x, g) := g.next
  (x >>> 1, g)

/-- The next word modulo a positive bound (`next_usize`). -/
def below (g : Xorshift) (bound : Nat) (pos : 0 < bound) : Fin bound × Xorshift :=
  let (x, g) := g.next
  (⟨x.toNat % bound, Nat.mod_lt _ pos⟩, g)

/-- `next_usize` for any bound: there is no value below zero, but the generator advances all the
    same. -/
def below? (g : Xorshift) (bound : Nat) : Option Nat × Xorshift :=
  if pos : 0 < bound then
    let (i, g) := g.below bound pos
    (some i, g)
  else
    (none, g.next.2)

@[simp] theorem next_fst (g : Xorshift) : g.next.1 = scramble g.state := rfl

@[simp] theorem next_snd (g : Xorshift) : g.next.2 = ⟨scramble g.state⟩ := rfl

@[simp] theorem nextHalf_fst (g : Xorshift) : g.nextHalf.1 = scramble g.state >>> 1 := rfl

@[simp] theorem nextHalf_snd (g : Xorshift) : g.nextHalf.2 = ⟨scramble g.state⟩ := rfl

@[simp] theorem below_fst_val (g : Xorshift) (bound : Nat) (pos : 0 < bound) :
    (g.below bound pos).1.val = (scramble g.state).toNat % bound := rfl

@[simp] theorem below_snd (g : Xorshift) (bound : Nat) (pos : 0 < bound) :
    (g.below bound pos).2 = ⟨scramble g.state⟩ := rfl

end Xorshift

end Koi
