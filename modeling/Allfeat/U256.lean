import Mathlib.Tactic.Ring

/-!
# 256-bit words as four 64-bit limbs

`U256` is the word of the `primitive-types` crate that the runtime converts balances to and
from. It is stored as four `u64` limbs, least significant first, and ordered by comparing the
limbs from the most significant one down. `toNat` is the number a word stands for; the
comparison and the two `u128` conversions are proved to agree with it.
-/

namespace Allfeat

/-- `u128`, the runtime's `Balance`. -/
abbrev Balance := BitVec 128

def valueLE : List (BitVec 64) → Nat
  | [] => 0
  | w :: ws => w.toNat + 2 ^ 64 * valueLE ws

def valueBE : List (BitVec 64) → Nat
  | [] => 0
  | w :: ws => w.toNat * 2 ^ (64 * ws.length) + valueBE ws

theorem valueBE_lt : ∀ ws : List (BitVec 64), valueBE ws < 2 ^ (64 * ws.length)
  | [] => by simp [valueBE]
  | w :: ws => by
    have hw := w.isLt
    have h := valueBE_lt ws
    calc valueBE (w :: ws) = w.toNat * 2 ^ (64 * ws.length) + valueBE ws := rfl
      _ < (w.toNat + 1) * 2 ^ (64 * ws.length) := by rw [Nat.add_mul, Nat.one_mul]; omega
      _ ≤ 2 ^ 64 * 2 ^ (64 * ws.length) := Nat.mul_le_mul_right _ hw
      _ = 2 ^ (64 * (w :: ws).length) := by
        rw [← Nat.pow_add, List.length_cons, Nat.mul_succ, Nat.add_comm]

theorem valueBE_append_singleton (w : BitVec 64) :
    ∀ ws : List (BitVec 64), valueBE (ws ++ [w]) = valueBE ws * 2 ^ 64 + w.toNat
  | [] => by simp [valueBE]
  | v :: ws => by
    rw [List.cons_append, valueBE, valueBE, valueBE_append_singleton w ws, List.length_append,
      List.length_singleton, Nat.mul_succ, Nat.pow_add]
    ring

theorem valueBE_reverse : ∀ ws : List (BitVec 64), valueBE ws.reverse = valueLE ws
  | [] => rfl
  | w :: ws => by
    rw [List.reverse_cons, valueBE_append_singleton, valueBE_reverse ws, valueLE]
    ring

/-- `Iterator::cmp`: the first unequal pair of items decides, and a proper prefix is less. -/
def lexCmp : List (BitVec 64) → List (BitVec 64) → Ordering
  | [], [] => .eq
  | [], _ :: _ => .lt
  | _ :: _, [] => .gt
  | a :: as, b :: bs =>
    match compare a.toNat b.toNat with
    | .eq => lexCmp as bs
    | o => o

theorem digit_lt {a b x y B : Nat} (h : a < b) (hx : x < B) : a * B + x < b * B + y := by
  have : (a + 1) * B ≤ b * B := Nat.mul_le_mul_right _ h
  rw [Nat.add_mul, Nat.one_mul] at this
  omega

theorem lexCmp_eq_compare : ∀ xs ys : List (BitVec 64), xs.length = ys.length →
    lexCmp xs ys = compare (valueBE xs) (valueBE ys)
  | [], [], _ => rfl
  | a :: as, b :: bs, h => by
    have hl : bs.length = as.length := by simpa using h.symm
    have ha := valueBE_lt as
    have hb := valueBE_lt bs
    rw [hl] at hb
    simp only [lexCmp, valueBE, hl]
    rcases lt_trichotomy a.toNat b.toNat with hab | hab | hab
    · rw [Nat.compare_eq_lt.mpr hab, Nat.compare_eq_lt.mpr (digit_lt hab ha)]
    · rw [hab, Nat.compare_eq_eq.mpr rfl, ← cmp_eq_compare, cmp_add_left, cmp_eq_compare,
        lexCmp_eq_compare as bs (by simpa using h)]
    · rw [Nat.compare_eq_gt.mpr hab, Nat.compare_eq_gt.mpr (digit_lt hab hb)]

/-- `U256(pub [u64; 4])`, limbs least significant first. -/
structure U256 where
  words : List (BitVec 64)
  length_words : words.length = 4
deriving DecidableEq

namespace U256

def toNat (n : U256) : Nat := valueLE n.words

instance : Ord U256 := ⟨fun a b => lexCmp a.words.reverse b.words.reverse⟩

instance : LE U256 := ⟨fun a b => compare a b ≠ .gt⟩

instance (a b : U256) : Decidable (a ≤ b) := inferInstanceAs (Decidable (compare a b ≠ .gt))

theorem toNat_lt (n : U256) : n.toNat < 2 ^ 256 := by
  have h := valueBE_lt n.words.reverse
  rwa [valueBE_reverse, List.length_reverse, n.length_words] at h

theorem compare_eq_compare_toNat (a b : U256) : compare a b = compare a.toNat b.toNat := by
  change lexCmp a.words.reverse b.words.reverse = _
  rw [lexCmp_eq_compare _ _ (by simp [a.length_words, b.length_words]), valueBE_reverse,
    valueBE_reverse]
  rfl

theorem le_iff_toNat_le {a b : U256} : a ≤ b ↔ a.toNat ≤ b.toNat := by
  change compare a b ≠ .gt ↔ _
  rw [compare_eq_compare_toNat, Ne, Nat.compare_eq_gt, Nat.not_lt]

/-- `From<u128> for U256`: the low and high halves go to limbs 0 and 1. -/
def ofU128 (v : Balance) : U256 := ⟨[v.setWidth 64, (v >>> 64).setWidth 64, 0, 0], rfl⟩

theorem toNat_ofU128 (v : Balance) : (ofU128 v).toNat = v.toNat := by
  have hv := v.isLt
  simp only [toNat, ofU128, valueLE, BitVec.toNat_setWidth, BitVec.toNat_ushiftRight,
    Nat.shiftRight_eq_div_pow, BitVec.toNat_ofNat, BitVec.ofNat_eq_ofNat]
  omega

/-- `TryFrom<U256> for u128`: limbs 2 and 3 must be zero, then limbs 1 and 0 are joined. -/
def tryIntoU128 (n : U256) : Except String Balance :=
  if (n.words.drop 2).all (· == 0) then
    .ok ((n.words.getD 1 0).setWidth 128 <<< 64 + (n.words.getD 0 0).setWidth 128)
  else .error "integer overflow when casting to u128"

theorem exists_words (n : U256) : ∃ w0 w1 w2 w3, n = ⟨[w0, w1, w2, w3], rfl⟩ := by
  rcases n with ⟨_ | ⟨w0, _ | ⟨w1, _ | ⟨w2, _ | ⟨w3, _ | ⟨w4, ws⟩⟩⟩⟩⟩, h⟩ <;>
    simp only [List.length_cons, List.length_nil] at h <;>
    first | omega | exact ⟨w0, w1, w2, w3, rfl⟩

theorem toNat_mk (w0 w1 w2 w3 : BitVec 64) : toNat ⟨[w0, w1, w2, w3], rfl⟩ =
    w0.toNat + 2 ^ 64 * w1.toNat + 2 ^ 128 * (w2.toNat + 2 ^ 64 * w3.toNat) := by
  simp only [toNat, valueLE]
  ring

theorem toNat_injective {a b : U256} (h : a.toNat = b.toNat) : a = b := by
  obtain ⟨a0, a1, a2, a3, rfl⟩ := a.exists_words
  obtain ⟨b0, b1, b2, b3, rfl⟩ := b.exists_words
  rw [toNat_mk, toNat_mk] at h
  have := a0.isLt; have := a1.isLt; have := a2.isLt; have := a3.isLt
  have := b0.isLt; have := b1.isLt; have := b2.isLt; have := b3.isLt
  obtain rfl := BitVec.eq_of_toNat_eq (show a0.toNat = b0.toNat by omega)
  obtain rfl := BitVec.eq_of_toNat_eq (show a1.toNat = b1.toNat by omega)
  obtain rfl := BitVec.eq_of_toNat_eq (show a2.toNat = b2.toNat by omega)
  obtain rfl := BitVec.eq_of_toNat_eq (show a3.toNat = b3.toNat by omega)
  rfl

theorem tryIntoU128_eq (n : U256) :
    n.tryIntoU128 = if n.toNat < 2 ^ 128 then .ok (BitVec.ofNat 128 n.toNat)
      else .error "integer overflow when casting to u128" := by
  obtain ⟨w0, w1, w2, w3, rfl⟩ := n.exists_words
  have h0 := w0.isLt
  have h1 := w1.isLt
  have hhigh : w2 = 0 ∧ w3 = 0 ↔ toNat ⟨[w0, w1, w2, w3], rfl⟩ < 2 ^ 128 := by
    simp only [toNat_mk, BitVec.toNat_eq, BitVec.ofNat_eq_ofNat, BitVec.toNat_ofNat]
    omega
  simp only [tryIntoU128, List.drop, List.getD_cons_succ, List.getD_cons_zero, List.all_cons,
    List.all_nil, Bool.and_true, Bool.and_eq_true, beq_iff_eq, hhigh]
  split_ifs with hlt
  · obtain ⟨rfl, rfl⟩ := hhigh.mpr hlt
    refine congrArg Except.ok (BitVec.eq_of_toNat_eq ?_)
    simp only [toNat_mk, BitVec.toNat_add, BitVec.toNat_shiftLeft, BitVec.toNat_setWidth,
      Nat.shiftLeft_eq, BitVec.toNat_ofNat, BitVec.ofNat_eq_ofNat]
    omega
  · rfl

end U256

end Allfeat
