import Allfeat.Weight

/-!
# Benchmarked weight functions of `pallet_safe_mode`, `pallet_utility` and `pallet_artists`

Every generated weight function starts from a measured `Weight::from_parts` and
saturating-adds further terms: storage reads and writes priced by the database weight, or a
per-call weight scaled by the number of calls in a batch. `benchmarked` is that shape, and
each function below is `benchmarked` applied to the function's own constants. It saturates
once: each component is the exact total, capped at `u64::MAX`. It is monotone, which orders
the safe-mode functions that differ only in their storage accesses and makes each of them
monotone in the database weight. `pallet_artists` still has the older weights, a bare `u64`,
folded the same way.
-/

namespace Allfeat

/-- `base.saturating_add(t₁).saturating_add(t₂)…`. -/
def benchmarked (base : Weight) (terms : List Weight) : Weight :=
  terms.foldl Weight.saturatingAdd base

@[simp] theorem benchmarked_nil (base : Weight) : benchmarked base [] = base := rfl

@[simp] theorem benchmarked_cons (base t : Weight) (ts : List Weight) :
    benchmarked base (t :: ts) = benchmarked (base.saturatingAdd t) ts := rfl

theorem allLte_benchmarked (base : Weight) (terms : List Weight) :
    base.allLte (benchmarked base terms) := by
  induction terms generalizing base with
  | nil => exact Weight.allLte_refl base
  | cons t ts ih => exact Weight.allLte_trans (Weight.allLte_saturatingAdd base t) (ih _)

theorem benchmarked_mono {base base' : Weight} {terms terms' : List Weight}
    (hb : base.allLte base') (ht : List.Forall₂ Weight.allLte terms terms') :
    (benchmarked base terms).allLte (benchmarked base' terms') := by
  induction ht generalizing base base' with
  | nil => exact hb
  | cons h _ ih => exact ih (Weight.saturatingAdd_mono hb h)

section Exact

variable (comp : Weight → BitVec 64)
  (hcomp : ∀ w v, comp (w.saturatingAdd v) = U64.saturatingAdd (comp w) (comp v))

include hcomp in
theorem comp_benchmarked (base : Weight) (terms : List Weight) :
    comp (benchmarked base terms) = (terms.map comp).foldl U64.saturatingAdd (comp base) := by
  induction terms generalizing base with
  | nil => rfl
  | cons t ts ih => rw [benchmarked_cons, ih, hcomp]; rfl

include hcomp in
theorem toNat_comp_benchmarked (base : Weight) (terms : List Weight) :
    (comp (benchmarked base terms)).toNat =
      min ((comp base).toNat + (terms.map fun t => (comp t).toNat).sum) (2 ^ 64 - 1) := by
  rw [comp_benchmarked comp hcomp, U64.toNat_foldl_saturatingAdd, List.map_map]
  rfl

end Exact

/-- Every benchmarked weight saturates once: each component is the exact total of the base and
the terms, capped at `u64::MAX`, so no intermediate saturation loses a term. -/
theorem benchmarked_saturates_once (base : Weight) (terms : List Weight) :
    (benchmarked base terms).refTime.toNat =
        min (base.refTime.toNat + (terms.map fun t => t.refTime.toNat).sum) (2 ^ 64 - 1) ∧
      (benchmarked base terms).proofSize.toNat =
        min (base.proofSize.toNat + (terms.map fun t => t.proofSize.toNat).sum) (2 ^ 64 - 1) :=
  ⟨toNat_comp_benchmarked _ (fun _ _ => rfl) base terms,
    toNat_comp_benchmarked _ (fun _ _ => rfl) base terms⟩

namespace SafeMode

variable (db : RuntimeDbWeight)

def onInitializeNoop : Weight := benchmarked (.fromParts 4840000 1489) [db.reads 1]

def onInitializeExit : Weight :=
  benchmarked (.fromParts 13440000 1489) [db.reads 1, db.writes 1]

def enter : Weight := benchmarked (.fromParts 0 0) []

def forceEnter : Weight := benchmarked (.fromParts 15320000 1489) [db.reads 1, db.writes 1]

def extend : Weight := benchmarked (.fromParts 0 0) []

def forceExtend : Weight := benchmarked (.fromParts 16760000 1489) [db.reads 1, db.writes 1]

def forceExit : Weight := benchmarked (.fromParts 17320000 1489) [db.reads 1, db.writes 1]

def releaseDeposit : Weight := benchmarked (.fromParts 72921000 3622) [db.reads 3, db.writes 2]

def forceReleaseDeposit : Weight :=
  benchmarked (.fromParts 70961000 3622) [db.reads 2, db.writes 2]

def forceSlashDeposit : Weight :=
  benchmarked (.fromParts 56601000 3622) [db.reads 2, db.writes 2]

def dbWeights : List (RuntimeDbWeight → Weight) :=
  [onInitializeNoop, onInitializeExit, forceEnter, forceExtend, forceExit, releaseDeposit,
    forceReleaseDeposit, forceSlashDeposit]

theorem benchmarked_accesses_mono {db db' : RuntimeDbWeight} (h : db.Le db') (base : Weight)
    (r w : BitVec 64) :
    (benchmarked base [db.reads r, db.writes w]).allLte
      (benchmarked base [db'.reads r, db'.writes w]) :=
  benchmarked_mono (Weight.allLte_refl base)
    (.cons (db.reads_mono h (Nat.le_refl _)) (.cons (db.writes_mono h (Nat.le_refl _)) .nil))

end SafeMode

/-- A dearer database never makes a safe-mode call cheaper. -/
theorem safe_mode_weights_mono {db db' : RuntimeDbWeight} (h : db.Le db') :
    ∀ f ∈ SafeMode.dbWeights, (f db).allLte (f db') := by
  simp only [SafeMode.dbWeights, List.mem_cons, List.mem_singleton, List.not_mem_nil, or_false]
  rintro f (rfl | rfl | rfl | rfl | rfl | rfl | rfl | rfl)
  · exact benchmarked_mono (Weight.allLte_refl _) (.cons (db.reads_mono h (Nat.le_refl _)) .nil)
  all_goals exact SafeMode.benchmarked_accesses_mono h _ _ _

theorem safe_mode_weights_mono_paritydb_rocksdb :
    RuntimeDbWeight.Le ⟨8000000, 50000000⟩ ⟨25000000, 100000000⟩ ∧
      ∀ f ∈ SafeMode.dbWeights, (f ⟨8000000, 50000000⟩).allLte (f ⟨25000000, 100000000⟩) :=
  ⟨⟨by decide, by decide⟩, safe_mode_weights_mono ⟨by decide, by decide⟩⟩

/-- For every database weight, the functions that differ only by a storage access are ordered:
an exiting `on_initialize` weighs at least the no-op one, which skips the write, and a release
of a deposit at least the forced release, which skips the read of `EnteredUntil`. -/
theorem safe_mode_weights_ordered (db : RuntimeDbWeight) :
    (SafeMode.onInitializeNoop db).allLte (SafeMode.onInitializeExit db) ∧
      (SafeMode.forceReleaseDeposit db).allLte (SafeMode.releaseDeposit db) := by
  have hdb : db.Le db := ⟨Nat.le_refl _, Nat.le_refl _⟩
  constructor
  · have hbase : (Weight.fromParts 4840000 1489).allLte (.fromParts 13440000 1489) := by decide
    have hexit : SafeMode.onInitializeExit db =
        benchmarked (benchmarked (.fromParts 13440000 1489) [db.reads 1]) [db.writes 1] := rfl
    rw [hexit]
    exact Weight.allLte_trans
      (benchmarked_mono hbase (.cons (db.reads_mono hdb (Nat.le_refl _)) .nil))
      (allLte_benchmarked _ [db.writes 1])
  · have hbase : (Weight.fromParts 70961000 3622).allLte (.fromParts 72921000 3622) := by decide
    exact benchmarked_mono hbase (.cons (db.reads_mono hdb (by decide))
      (.cons (db.writes_mono hdb (Nat.le_refl _)) .nil))

namespace Utility

/-- `pallet_utility`'s batch shape: `from_parts(base, 0)` plus `from_parts(perCall, 0)` times
`c`, widened from `u32`. -/
def batchShape (base perCall : BitVec 64) (c : BitVec 32) : Weight :=
  benchmarked (.fromParts base 0) [(Weight.fromParts perCall 0).saturatingMul (c.setWidth 64)]

def batch (c : BitVec 32) : Weight := batchShape 5934467 3241628 c

def asDerivative : Weight := benchmarked (.fromParts 4799000 0) []

def batchAll (c : BitVec 32) : Weight := batchShape 5240000 3489888 c

def dispatchAs : Weight := benchmarked (.fromParts 7400000 0) []

def forceBatch (c : BitVec 32) : Weight := batchShape 6563475 3246870 c

end Utility

namespace Artists

/-- `force_create(a, b, _c)` of `pallet_artists`, written against the `Weight = u64` of its
time, when `reads(r)` was `read.saturating_mul(r)`. -/
def forceCreate (db : RuntimeDbWeight) (a b _c : BitVec 32) : BitVec 64 :=
  [U64.saturatingMul 12223000 (a.setWidth 64), U64.saturatingMul 11930000 (b.setWidth 64),
    U64.saturatingMul db.read 4, U64.saturatingMul db.write 4].foldl U64.saturatingAdd 2715072000

end Artists

/-- For every database weight whose read and write together stay below `2 ^ 61`, and all
`u32` arguments, `force_create` never saturates: it is the base plus the per-item weights
times `a` and `b` plus four reads and four writes, and `_c` does not count. -/
theorem artists_force_create_exact (db : RuntimeDbWeight) (a b c : BitVec 32)
    (hdb : db.read.toNat + db.write.toNat < 2 ^ 61) :
    (Artists.forceCreate db a b c).toNat = 2715072000 + 12223000 * a.toNat +
      11930000 * b.toNat + 4 * db.read.toNat + 4 * db.write.toNat := by
  have := a.isLt
  have := b.isLt
  simp only [Artists.forceCreate, U64.toNat_foldl_saturatingAdd, List.map_cons, List.map_nil,
    List.sum_cons, List.sum_nil, U64.toNat_saturatingMul,
    toNat_setWidth_of_le (show 32 ≤ 64 by decide), BitVec.ofNat_eq_ofNat, BitVec.toNat_ofNat]
  omega

theorem artists_force_create_exact_rocksdb :
    (25000000 : BitVec 64).toNat + (100000000 : BitVec 64).toNat < 2 ^ 61 ∧
      (Artists.forceCreate ⟨25000000, 100000000⟩ 1 2 3).toNat =
        2715072000 + 12223000 * 1 + 11930000 * 2 + 4 * 25000000 + 4 * 100000000 :=
  ⟨by decide, artists_force_create_exact ⟨25000000, 100000000⟩ 1 2 3 (by decide)⟩

end Allfeat
