import Allfeat.U256

/-!
# Converting balances to and from `U256`

`BalanceToU256` and `U256ToBalance` are the two `Convert` implementations that the shared
runtime gives nomination pools. Widening goes through `From<u128>`. Narrowing tries
`TryFrom<U256>` and falls back on `Balance::MAX` through `defensive_unwrap_or`, so it is a
saturating clamp: the identity up to `Balance::MAX` and `Balance::MAX` above it. It is
therefore monotone and a left inverse of the widening. In a build with debug assertions the
fallback panics instead, on exactly the inputs above `Balance::MAX`.
-/

namespace Allfeat

def Balance.MAX : Balance := BitVec.allOnes 128

@[simp] theorem Balance.toNat_MAX : Balance.MAX.toNat = 2 ^ 128 - 1 := BitVec.toNat_allOnes

/-- `Defensive::defensive_unwrap_or` in a release build: the `Ok` value, or else `or` once
`defensive!` has logged the error. -/
def defensiveUnwrapOr {ε α : Type} : Except ε α → α → α
  | .ok a, _ => a
  | .error _, or => or

/-- `defensive_unwrap_or` with debug assertions on, where `defensive!` panics; `none` is the
panic. -/
def defensiveUnwrapOrDebug {ε α : Type} : Except ε α → α → Option α
  | .ok a, _ => some a
  | .error _, _ => none

namespace BalanceToU256

def convert (n : Balance) : U256 := U256.ofU128 n

@[simp] theorem toNat_convert (n : Balance) : (convert n).toNat = n.toNat := U256.toNat_ofU128 n

theorem convert_le_iff {a b : Balance} : convert a ≤ convert b ↔ a ≤ b := by
  rw [U256.le_iff_toNat_le, toNat_convert, toNat_convert, BitVec.le_def]

end BalanceToU256

namespace U256ToBalance

def convert (n : U256) : Balance := defensiveUnwrapOr n.tryIntoU128 Balance.MAX

def convertDebug (n : U256) : Option Balance := defensiveUnwrapOrDebug n.tryIntoU128 Balance.MAX

theorem convert_eq (n : U256) :
    convert n = if n.toNat ≤ Balance.MAX.toNat then BitVec.ofNat 128 n.toNat else Balance.MAX := by
  have hiff : n.toNat < 2 ^ 128 ↔ n.toNat ≤ Balance.MAX.toNat := by
    rw [Balance.toNat_MAX]
    omega
  simp only [convert, U256.tryIntoU128_eq, ← hiff]
  split <;> rfl

theorem toNat_convert (n : U256) : (convert n).toNat = min n.toNat Balance.MAX.toNat := by
  have hn := n.toNat_lt
  rw [convert_eq]
  split_ifs with h
  · rw [BitVec.toNat_ofNat, Nat.mod_eq_of_lt (by rw [Balance.toNat_MAX] at h; omega),
      Nat.min_eq_left h]
  · rw [Nat.min_eq_right (by omega)]

theorem convert_balanceToU256 (b : Balance) : convert (BalanceToU256.convert b) = b := by
  apply BitVec.eq_of_toNat_eq
  rw [toNat_convert, BalanceToU256.toNat_convert, Nat.min_eq_left]
  have := b.isLt
  rw [Balance.toNat_MAX]
  omega

theorem convert_mono {n m : U256} (h : n ≤ m) : convert n ≤ convert m := by
  have := U256.le_iff_toNat_le.mp h
  rw [BitVec.le_def, toNat_convert, toNat_convert]
  omega

theorem convertDebug_eq_none_iff (n : U256) :
    convertDebug n = none ↔ Balance.MAX.toNat < n.toNat := by
  rw [convertDebug, U256.tryIntoU128_eq, Balance.toNat_MAX]
  split_ifs with h
  · simp only [defensiveUnwrapOrDebug, reduceCtorEq, false_iff]
    omega
  · simp only [defensiveUnwrapOrDebug, true_iff]
    omega

theorem convertDebug_of_le {n : U256} (h : n.toNat ≤ Balance.MAX.toNat) :
    convertDebug n = some (convert n) := by
  rw [convertDebug, convert, U256.tryIntoU128_eq, if_pos (by rw [Balance.toNat_MAX] at h; omega)]
  rfl

/-- Narrowing is the upper adjoint of widening: a balance widens to at most `n` exactly when
it is at most `n` narrowed. -/
theorem balanceToU256_le_iff_le_convert (b : Balance) (n : U256) :
    BalanceToU256.convert b ≤ n ↔ b ≤ convert n := by
  have := b.isLt
  rw [U256.le_iff_toNat_le, BalanceToU256.toNat_convert, BitVec.le_def, toNat_convert,
    Balance.toNat_MAX]
  omega

/-- Narrowing and widening back is the clamp to `Balance::MAX` inside `U256`. -/
theorem balanceToU256_convert (n : U256) :
    BalanceToU256.convert (convert n) =
      if n ≤ BalanceToU256.convert Balance.MAX then n else BalanceToU256.convert Balance.MAX := by
  apply U256.toNat_injective
  rw [BalanceToU256.toNat_convert, toNat_convert]
  split_ifs with h <;> rw [U256.le_iff_toNat_le, BalanceToU256.toNat_convert] at h
  · exact Nat.min_eq_left h
  · rw [BalanceToU256.toNat_convert]
    exact Nat.min_eq_right (by omega)

end U256ToBalance

/-- `U256ToBalance::convert` clamps into `Balance`, undoes `BalanceToU256::convert`, and is
monotone. -/
theorem u256_to_balance_saturating_clamp :
    (∀ n : U256, (U256ToBalance.convert n).toNat =
      if n.toNat ≤ Balance.MAX.toNat then n.toNat else Balance.MAX.toNat) ∧
    (∀ b : Balance, U256ToBalance.convert (BalanceToU256.convert b) = b) ∧
    (∀ n m : U256, n ≤ m → U256ToBalance.convert n ≤ U256ToBalance.convert m) :=
  ⟨fun n => by rw [U256ToBalance.toNat_convert, Nat.min_def],
    U256ToBalance.convert_balanceToU256, fun _ _ => U256ToBalance.convert_mono⟩

end Allfeat
