-- The signed machine integers in their order, so that the order lemmas of
-- Mathlib speak of them, and the sums that stay below the upper bound.
import Mathlib.Data.Int.Order.Basic

namespace signed_order

instance linearOrderInt32 : LinearOrder Int32 where
  le_refl := Int32.le_refl
  le_trans _ _ _ := Int32.le_trans
  le_antisymm _ _ := Int32.le_antisymm
  le_total := Int32.le_total
  lt_iff_le_not_ge a b := by grind
  toDecidableLE := inferInstance
  toDecidableLT := inferInstance
  toDecidableEq := inferInstance
  min_def _ _ := rfl
  max_def _ _ := rfl
  compare_eq_compareOfLessAndEq _ _ := rfl

instance linearOrderInt64 : LinearOrder Int64 where
  le_refl := Int64.le_refl
  le_trans _ _ _ := Int64.le_trans
  le_antisymm _ _ := Int64.le_antisymm
  le_total := Int64.le_total
  lt_iff_le_not_ge a b := by grind
  toDecidableLE := inferInstance
  toDecidableLT := inferInstance
  toDecidableEq := inferInstance
  min_def _ _ := rfl
  max_def _ _ := rfl
  compare_eq_compareOfLessAndEq _ _ := rfl

/-! ## Sums and remainders without overflow -/

theorem succ_toInt32 {x : Int32} (h0 : 0 ≤ x.toInt) (h : x.toInt < 2147483647) :
    (x + 1).toInt = x.toInt + 1 := by
  rw [Int32.toInt_add, show (1 : Int32).toInt = 1 by decide]
  exact Int.bmod_eq_of_le (by omega) (by omega)

theorem succ_toInt64 {x : Int64} (h0 : 0 ≤ x.toInt) (h : x.toInt < 9223372036854775807) :
    (x + 1).toInt = x.toInt + 1 := by
  rw [Int64.toInt_add, show (1 : Int64).toInt = 1 by decide]
  exact Int.bmod_eq_of_le (by omega) (by omega)

theorem mod_toInt32 {x m : Int32} (h0 : 0 ≤ x.toInt) (h : x.toInt < m.toInt) :
    (x % m).toInt = x.toInt := by
  rw [Int32.toInt_mod, Int.tmod_eq_emod_of_nonneg h0, Int.emod_eq_of_lt h0 h]

theorem mod_toInt64 {x m : Int64} (h0 : 0 ≤ x.toInt) (h : x.toInt < m.toInt) :
    (x % m).toInt = x.toInt := by
  rw [Int64.toInt_mod, Int.tmod_eq_emod_of_nonneg h0, Int.emod_eq_of_lt h0 h]

theorem toInt32_toInt {x : Int64} (h0 : 0 ≤ x.toInt) (h : x.toInt < 2147483648) :
    x.toInt32.toInt = x.toInt := by
  rw [Int64.toInt_toInt32]
  exact Int.bmod_eq_of_le (by omega) (by omega)

end signed_order
