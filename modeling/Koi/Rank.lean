import Std.Data.ExtTreeMap

/-!
# Order by rank

A type whose values are numbered has the order of the numbers.

* `compareRank`: that order. It is transitive, and lawful if no two values share a number.
-/

namespace Koi

/-- Compares two values by their numbers. -/
def compareRank {α : Type} (rank : α → Nat) (a b : α) : Ordering :=
  compare (rank a) (rank b)

instance {α : Type} (rank : α → Nat) : Std.TransCmp (compareRank rank) where
  eq_swap := by
    intro a b
    exact @Std.OrientedCmp.eq_swap Nat compare _ (rank a) (rank b)
  isLE_trans := by
    intro a b c hab hbc
    exact @Std.TransCmp.isLE_trans Nat compare _ (rank a) (rank b) (rank c) hab hbc

theorem lawfulEqCmp_compareRank {α : Type} {rank : α → Nat}
    (injective : ∀ {a b : α}, rank a = rank b → a = b) : Std.LawfulEqCmp (compareRank rank) where
  compare_self := by
    intro a
    exact @Std.ReflCmp.compare_self Nat compare _ (rank a)
  eq_of_compare := by
    intro a b h
    exact injective (@Std.LawfulEqCmp.eq_of_compare Nat compare _ (rank a) (rank b) h)

end Koi
