import Mathlib.Tactic.Ring

/-!
# Two-dimensional weights with saturating arithmetic

`Saturating` is the saturating arithmetic of the unsigned integers, once for every width.
`Weight` is the pair of `u64` components, reference time and proof size, that every
benchmarked weight function of the runtime returns, and `RuntimeDbWeight` prices a storage
read or write in reference time. All of this arithmetic saturates at `u64::MAX` instead of
wrapping. Saturation only ever rounds a weight up to the cap: it never decreases a weight,
it keeps every operation monotone, and below the cap it is the exact sum or product.
-/

namespace Allfeat

/-! `Saturating`, the saturating arithmetic of the unsigned integer types: the result of the
operation, or the type's maximum where it would overflow, and zero where a subtraction would
underflow. -/

namespace Saturating

def saturatingAdd {w : Nat} (a b : BitVec w) : BitVec w :=
  BitVec.ofNat w (min (a.toNat + b.toNat) (2 ^ w - 1))

def saturatingSub {w : Nat} (a b : BitVec w) : BitVec w := BitVec.ofNat w (a.toNat - b.toNat)

def saturatingMul {w : Nat} (a b : BitVec w) : BitVec w :=
  BitVec.ofNat w (min (a.toNat * b.toNat) (2 ^ w - 1))

def saturatingPow {w : Nat} (a : BitVec w) (n : Nat) : BitVec w :=
  BitVec.ofNat w (min (a.toNat ^ n) (2 ^ w - 1))

theorem toNat_ofNat_min {w : Nat} (n : Nat) : (BitVec.ofNat w (min n (2 ^ w - 1))).toNat =
    min n (2 ^ w - 1) := by
  have := Nat.two_pow_pos w
  rw [BitVec.toNat_ofNat, Nat.mod_eq_of_lt (by omega)]

@[simp] theorem toNat_saturatingAdd {w : Nat} (a b : BitVec w) :
    (saturatingAdd a b).toNat = min (a.toNat + b.toNat) (2 ^ w - 1) := toNat_ofNat_min _

@[simp] theorem toNat_saturatingSub {w : Nat} (a b : BitVec w) :
    (saturatingSub a b).toNat = a.toNat - b.toNat := by
  have := a.isLt
  rw [saturatingSub, BitVec.toNat_ofNat, Nat.mod_eq_of_lt (by omega)]

@[simp] theorem toNat_saturatingMul {w : Nat} (a b : BitVec w) :
    (saturatingMul a b).toNat = min (a.toNat * b.toNat) (2 ^ w - 1) := toNat_ofNat_min _

@[simp] theorem toNat_saturatingPow {w : Nat} (a : BitVec w) (n : Nat) :
    (saturatingPow a n).toNat = min (a.toNat ^ n) (2 ^ w - 1) := toNat_ofNat_min _

end Saturating

theorem toNat_setWidth_of_le {w v : Nat} (h : w ≤ v) (x : BitVec w) :
    (x.setWidth v).toNat = x.toNat := by
  rw [BitVec.toNat_setWidth,
    Nat.mod_eq_of_lt (Nat.lt_of_lt_of_le x.isLt (Nat.pow_le_pow_right (by decide) h))]

namespace U64

/-- `u64::saturating_add`. -/
def saturatingAdd (a b : BitVec 64) : BitVec 64 := Saturating.saturatingAdd a b

/-- `u64::saturating_mul`. -/
def saturatingMul (a b : BitVec 64) : BitVec 64 := Saturating.saturatingMul a b

@[simp] theorem toNat_saturatingAdd (a b : BitVec 64) :
    (saturatingAdd a b).toNat = min (a.toNat + b.toNat) (2 ^ 64 - 1) :=
  Saturating.toNat_saturatingAdd a b

@[simp] theorem toNat_saturatingMul (a b : BitVec 64) :
    (saturatingMul a b).toNat = min (a.toNat * b.toNat) (2 ^ 64 - 1) :=
  Saturating.toNat_saturatingMul a b

theorem saturatingMul_mono {a a' b b' : BitVec 64} (ha : a.toNat ≤ a'.toNat)
    (hb : b.toNat ≤ b'.toNat) : (saturatingMul a b).toNat ≤ (saturatingMul a' b').toNat := by
  have := Nat.mul_le_mul ha hb
  simp only [toNat_saturatingMul]
  omega

theorem toNat_foldl_saturatingAdd (base : BitVec 64) (xs : List (BitVec 64)) :
    (xs.foldl saturatingAdd base).toNat =
      min (base.toNat + (xs.map BitVec.toNat).sum) (2 ^ 64 - 1) := by
  induction xs generalizing base with
  | nil =>
    have := base.isLt
    simp only [List.foldl_nil, List.map_nil, List.sum_nil, Nat.add_zero]
    omega
  | cons x xs ih =>
    rw [List.foldl_cons, ih, toNat_saturatingAdd, List.map_cons, List.sum_cons]
    omega

end U64

/-- `Weight { ref_time, proof_size }`. -/
structure Weight where
  refTime : BitVec 64
  proofSize : BitVec 64
deriving DecidableEq, Repr

namespace Weight

def fromParts (refTime proofSize : BitVec 64) : Weight := ⟨refTime, proofSize⟩

@[simp] theorem refTime_fromParts (r p : BitVec 64) : (fromParts r p).refTime = r := rfl

@[simp] theorem proofSize_fromParts (r p : BitVec 64) : (fromParts r p).proofSize = p := rfl

def saturatingAdd (w v : Weight) : Weight :=
  ⟨U64.saturatingAdd w.refTime v.refTime, U64.saturatingAdd w.proofSize v.proofSize⟩

def saturatingMul (w : Weight) (b : BitVec 64) : Weight :=
  ⟨U64.saturatingMul w.refTime b, U64.saturatingMul w.proofSize b⟩

@[simp] theorem refTime_saturatingMul (w : Weight) (b : BitVec 64) :
    (w.saturatingMul b).refTime = U64.saturatingMul w.refTime b := rfl

@[simp] theorem proofSize_saturatingMul (w : Weight) (b : BitVec 64) :
    (w.saturatingMul b).proofSize = U64.saturatingMul w.proofSize b := rfl

/-- `Weight::all_lte`: no component of `w` exceeds the one of `v`. -/
def allLte (w v : Weight) : Prop := w.refTime.toNat ≤ v.refTime.toNat ∧
  w.proofSize.toNat ≤ v.proofSize.toNat

instance (w v : Weight) : Decidable (allLte w v) := inferInstanceAs (Decidable (_ ∧ _))

theorem allLte_refl (w : Weight) : allLte w w := ⟨Nat.le_refl _, Nat.le_refl _⟩

theorem allLte_trans {u v w : Weight} (h₁ : allLte u v) (h₂ : allLte v w) : allLte u w :=
  ⟨Nat.le_trans h₁.1 h₂.1, Nat.le_trans h₁.2 h₂.2⟩

theorem allLte_saturatingAdd (w v : Weight) : allLte w (w.saturatingAdd v) := by
  have := w.refTime.isLt
  have := w.proofSize.isLt
  constructor <;> simp only [saturatingAdd, U64.toNat_saturatingAdd] <;> omega

theorem saturatingAdd_mono {w w' v v' : Weight} (hw : allLte w w') (hv : allLte v v') :
    allLte (w.saturatingAdd v) (w'.saturatingAdd v') := by
  obtain ⟨hw₁, hw₂⟩ := hw
  obtain ⟨hv₁, hv₂⟩ := hv
  constructor <;> simp only [saturatingAdd, U64.toNat_saturatingAdd] <;> omega

theorem saturatingMul_mono {w w' : Weight} {b b' : BitVec 64} (hw : allLte w w')
    (hb : b.toNat ≤ b'.toNat) : allLte (w.saturatingMul b) (w'.saturatingMul b') :=
  ⟨U64.saturatingMul_mono hw.1 hb, U64.saturatingMul_mono hw.2 hb⟩

end Weight

/-- `RuntimeDbWeight { read, write }`: the reference time of one storage read and write. -/
structure RuntimeDbWeight where
  read : BitVec 64
  write : BitVec 64
deriving DecidableEq, Repr

namespace RuntimeDbWeight

/-- `RuntimeDbWeight::reads`: `r` reads, priced in reference time only. -/
def reads (db : RuntimeDbWeight) (r : BitVec 64) : Weight :=
  Weight.fromParts (U64.saturatingMul db.read r) 0

def writes (db : RuntimeDbWeight) (w : BitVec 64) : Weight :=
  Weight.fromParts (U64.saturatingMul db.write w) 0

/-- One database weight is dearer than another when both its reads and its writes are. -/
def Le (db db' : RuntimeDbWeight) : Prop := db.read.toNat ≤ db'.read.toNat ∧
  db.write.toNat ≤ db'.write.toNat

theorem reads_mono {db db' : RuntimeDbWeight} {r r' : BitVec 64} (hdb : db.Le db')
    (hr : r.toNat ≤ r'.toNat) : (db.reads r).allLte (db'.reads r') :=
  ⟨U64.saturatingMul_mono hdb.1 hr, Nat.le_refl _⟩

theorem writes_mono {db db' : RuntimeDbWeight} {w w' : BitVec 64} (hdb : db.Le db')
    (hw : w.toNat ≤ w'.toNat) : (db.writes w).allLte (db'.writes w') :=
  ⟨U64.saturatingMul_mono hdb.2 hw, Nat.le_refl _⟩

end RuntimeDbWeight

end Allfeat
