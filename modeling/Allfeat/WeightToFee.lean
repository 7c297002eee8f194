import Mathlib.Tactic.Linarith
import Allfeat.BalanceConvert
import Allfeat.Weight

/-!
# The fee of a weight

`WeightToFee::polynomial` prices weight with one coefficient of degree one: `100 * MICROAFT`
for the reference time of `ExtrinsicBaseWeight`, split into the integer quotient and a
`Perbill` for the remainder. `sp_weights` turns the polynomial into `weight_to_fee`, which
evaluates it in saturating `Balance` arithmetic, multiplying by a `Perbill` with rounding to
the nearest unit, halves down. `MICROAFT` and `ExtrinsicBaseWeight` are defined outside the
repository and are parameters here.

The coefficient is the price per unit of reference time truncated to billionths; a weight of
one base extrinsic is charged the intended price exactly; and the fee never decreases as the
weight grows.
-/

namespace Allfeat

/-- `Perbill`: a proportion in billionths, at most one. -/
structure Perbill where
  parts : Nat
  parts_le : parts ≤ 1000000000
deriving DecidableEq

namespace Perbill

def one : Perbill := ⟨1000000000, Nat.le_refl _⟩

/-- `Perbill::from_rational(p, q)`: `p / q` in billionths rounded down, or `one` where
`from_rational_with_rounding` fails because `q` is zero or `p` exceeds `q`. -/
def fromRational (p q : Balance) : Perbill :=
  if h : 0 < q.toNat ∧ p.toNat ≤ q.toNat then
    ⟨p.toNat * 1000000000 / q.toNat, Nat.div_le_of_le_mul (Nat.mul_le_mul_right _ h.2)⟩
  else one

theorem parts_fromRational {p q : Balance} (hq : 0 < q.toNat) (hpq : p.toNat ≤ q.toNat) :
    (fromRational p q).parts = p.toNat * 1000000000 / q.toNat := by
  rw [fromRational, dif_pos ⟨hq, hpq⟩]

/-- `rational_mul_correction` with `Rounding::NearestPrefDown`: what `x / 10^9 * parts` drops,
`x % 10^9 * parts / 10^9`, plus one where the remainder of that division exceeds a half. -/
def mulCorrection (x parts : Nat) : Nat :=
  x % 1000000000 * parts / 1000000000 +
    if x % 1000000000 * parts % 1000000000 > 1000000000 / 2 then 1 else 0

/-- `Perbill * Balance`: `overflow_prune_mul` with `Rounding::NearestPrefDown`. -/
def mul (p : Perbill) (x : Balance) : Balance :=
  x / 1000000000 * BitVec.ofNat 128 p.parts + BitVec.ofNat 128 (mulCorrection x.toNat p.parts)

theorem mulCorrection_round (x parts : Nat) :
    x * parts ≤ (x / 1000000000 * parts + mulCorrection x parts) * 1000000000 + 500000000 ∧
      (x / 1000000000 * parts + mulCorrection x parts) * 1000000000 < x * parts + 500000000 := by
  have hx : x * parts = x / 1000000000 * parts * 1000000000 + x % 1000000000 * parts := by
    conv_lhs => rw [← Nat.div_add_mod x 1000000000]
    ring
  have ht := Nat.div_add_mod (x % 1000000000 * parts) 1000000000
  have hlt := Nat.mod_lt (x % 1000000000 * parts) (show 0 < 1000000000 by decide)
  unfold mulCorrection
  split_ifs <;> omega

theorem toNat_mul (p : Perbill) (x : Balance) :
    (p.mul x).toNat = x.toNat / 1000000000 * p.parts + mulCorrection x.toNat p.parts := by
  have hround := (mulCorrection_round x.toNat p.parts).2
  have hle := Nat.mul_le_mul_left x.toNat p.parts_le
  have hx := x.isLt
  have hp := p.parts_le
  have hD : (1000000000 : Balance).toNat = 1000000000 := rfl
  simp only [mul, BitVec.toNat_add, BitVec.toNat_mul, BitVec.toNat_udiv, hD, BitVec.toNat_ofNat]
  rw [Nat.mod_eq_of_lt (show p.parts < 2 ^ 128 by omega)]
  omega

theorem mul_round (p : Perbill) (x : Balance) :
    x.toNat * p.parts ≤ (p.mul x).toNat * 1000000000 + 500000000 ∧
      (p.mul x).toNat * 1000000000 < x.toNat * p.parts + 500000000 := by
  rw [toNat_mul]
  exact mulCorrection_round x.toNat p.parts

theorem mul_mono (p : Perbill) {x y : Balance} (h : x.toNat ≤ y.toNat) :
    (p.mul x).toNat ≤ (p.mul y).toNat := by
  have hx := (mul_round p x).2
  have hy := (mul_round p y).1
  have := Nat.mul_le_mul_right p.parts h
  omega

end Perbill

/-- `WeightToFeeCoefficient`: `coeff_integer + coeff_frac` times the weight to the power
`degree`, added, or subtracted where `negative`. -/
structure WeightToFeeCoefficient where
  coeffInteger : Balance
  coeffFrac : Perbill
  negative : Bool
  degree : BitVec 8
deriving DecidableEq

def weightToFeeStep (weight : Weight) (acc : Balance) (args : WeightToFeeCoefficient) :
    Balance :=
  let w := Saturating.saturatingPow (weight.refTime.setWidth 128) args.degree.toNat
  let frac := args.coeffFrac.mul w
  let integer := Saturating.saturatingMul args.coeffInteger w
  if args.negative then Saturating.saturatingSub (Saturating.saturatingSub acc frac) integer
  else Saturating.saturatingAdd (Saturating.saturatingAdd acc frac) integer

/-- `WeightToFee::weight_to_fee`, which `sp_weights` derives from a `WeightToFeePolynomial`. -/
def weightToFee (polynomial : List WeightToFeeCoefficient) (weight : Weight) : Balance :=
  polynomial.foldl (weightToFeeStep weight) 0

theorem weightToFeeStep_mono {weight weight' : Weight} {acc acc' : Balance}
    (args : WeightToFeeCoefficient) (hpos : args.negative = false)
    (hw : weight.refTime.toNat ≤ weight'.refTime.toNat) (hacc : acc.toNat ≤ acc'.toNat) :
    (weightToFeeStep weight acc args).toNat ≤ (weightToFeeStep weight' acc' args).toNat := by
  have hwide := toNat_setWidth_of_le (show 64 ≤ 128 by decide)
  have hpow := Nat.pow_le_pow_left
    (show (weight.refTime.setWidth 128).toNat ≤ (weight'.refTime.setWidth 128).toNat by
      rwa [hwide, hwide]) args.degree.toNat
  have hw' : (Saturating.saturatingPow (weight.refTime.setWidth 128) args.degree.toNat).toNat ≤
      (Saturating.saturatingPow (weight'.refTime.setWidth 128) args.degree.toNat).toNat := by
    simp only [Saturating.toNat_saturatingPow]
    omega
  have hfrac := args.coeffFrac.mul_mono hw'
  have hint := Nat.mul_le_mul_left args.coeffInteger.toNat hw'
  simp only [weightToFeeStep, hpos, Bool.false_eq_true, if_false,
    Saturating.toNat_saturatingAdd, Saturating.toNat_saturatingMul]
  omega

theorem weightToFee_mono {polynomial : List WeightToFeeCoefficient} {weight weight' : Weight}
    (hpos : ∀ c ∈ polynomial, c.negative = false)
    (hw : weight.refTime.toNat ≤ weight'.refTime.toNat) :
    (weightToFee polynomial weight).toNat ≤ (weightToFee polynomial weight').toNat := by
  suffices ∀ acc acc' : Balance, acc.toNat ≤ acc'.toNat →
      (polynomial.foldl (weightToFeeStep weight) acc).toNat ≤
        (polynomial.foldl (weightToFeeStep weight') acc').toNat from this 0 0 (Nat.le_refl _)
  induction polynomial with
  | nil => exact fun _ _ h => h
  | cons c cs ih =>
    intro acc acc' hacc
    exact ih (fun c' hc' => hpos c' (List.mem_cons_of_mem c hc')) _ _
      (weightToFeeStep_mono c (hpos c (List.mem_cons_self c cs)) hw hacc)

namespace WeightToFee

/-- `WeightToFee::polynomial` for the `MICROAFT` and `ExtrinsicBaseWeight` it reads; `none`
is the panic of `p % q` where the base weight's reference time is zero. -/
def polynomial (microAft : Balance) (extrinsicBaseWeight : Weight) :
    Option (List WeightToFeeCoefficient) :=
  let p := 100 * microAft
  let q : Balance := extrinsicBaseWeight.refTime.setWidth 128
  if q = 0 then none
  else some [{ degree := 1, negative := false,
               coeffFrac := Perbill.fromRational (p % q) q, coeffInteger := p / q }]

/-- The fee the runtime charges for a weight. -/
def fee (microAft : Balance) (extrinsicBaseWeight weight : Weight) : Option Balance :=
  (polynomial microAft extrinsicBaseWeight).map (weightToFee · weight)

/-- The coefficient that `polynomial` builds for a base weight with a nonzero reference time. -/
def coefficient (microAft : Balance) (extrinsicBaseWeight : Weight) : WeightToFeeCoefficient :=
  { degree := 1, negative := false,
    coeffFrac := Perbill.fromRational (100 * microAft % extrinsicBaseWeight.refTime.setWidth 128)
      (extrinsicBaseWeight.refTime.setWidth 128),
    coeffInteger := 100 * microAft / extrinsicBaseWeight.refTime.setWidth 128 }

theorem polynomial_eq (m : Balance) (ebw : Weight) :
    polynomial m ebw = if ebw.refTime = 0 then none else some [coefficient m ebw] := by
  have hq : ebw.refTime.setWidth 128 = 0 ↔ ebw.refTime = 0 := by
    rw [BitVec.toNat_eq, BitVec.toNat_eq, toNat_setWidth_of_le (show 64 ≤ 128 by decide)]
    rfl
  simp only [polynomial, hq]
  rfl

theorem polynomial_of_pos {m : Balance} {ebw : Weight} (h : 0 < ebw.refTime.toNat) :
    polynomial m ebw = some [coefficient m ebw] :=
  (polynomial_eq m ebw).trans (if_neg fun h0 => by simp [h0] at h)

theorem polynomial_eq_none_iff (m : Balance) (ebw : Weight) :
    polynomial m ebw = none ↔ ebw.refTime = 0 := by
  rw [polynomial_eq]
  split_ifs with h
  · exact iff_of_true rfl h
  · exact iff_of_false (by simp) h

theorem negative_of_polynomial {m : Balance} {ebw : Weight}
    {poly : List WeightToFeeCoefficient} (h : polynomial m ebw = some poly) :
    ∀ c ∈ poly, c.negative = false := by
  rw [polynomial_eq] at h
  split_ifs at h
  cases h
  intro c hc
  rw [List.mem_singleton.mp hc]
  rfl

theorem fee_of_pos {m : Balance} {ebw : Weight} (h : 0 < ebw.refTime.toNat) (w : Weight) :
    fee m ebw w = some (weightToFee [coefficient m ebw] w) := by
  rw [fee, polynomial_of_pos h, Option.map_some']

theorem fee_eq_some {m : Balance} {ebw w : Weight} {f : Balance} (hf : fee m ebw w = some f) :
    0 < ebw.refTime.toNat ∧ weightToFee [coefficient m ebw] w = f := by
  rw [fee, polynomial_eq] at hf
  split_ifs at hf with h
  · simp at hf
  · rw [Option.map_some', Option.some.injEq] at hf
    exact ⟨Nat.pos_of_ne_zero fun h0 => h (BitVec.eq_of_toNat_eq h0), hf⟩

theorem coeffFrac_parts_coefficient {m : Balance} {ebw : Weight} (h : 0 < ebw.refTime.toNat) :
    (coefficient m ebw).coeffFrac.parts =
      (100 * m).toNat % ebw.refTime.toNat * 1000000000 / ebw.refTime.toNat := by
  have hwide := toNat_setWidth_of_le (show 64 ≤ 128 by decide) ebw.refTime
  have hq : 0 < (ebw.refTime.setWidth 128).toNat := by rwa [hwide]
  rw [coefficient, Perbill.parts_fromRational hq, BitVec.toNat_umod, hwide]
  rw [BitVec.toNat_umod]
  exact Nat.le_of_lt (Nat.mod_lt _ hq)

theorem coeffInteger_coefficient (m : Balance) (ebw : Weight) :
    (coefficient m ebw).coeffInteger.toNat = (100 * m).toNat / ebw.refTime.toNat := by
  rw [coefficient, BitVec.toNat_udiv, toNat_setWidth_of_le (show 64 ≤ 128 by decide)]

theorem toNat_saturatingPow_one (w : Weight) :
    (Saturating.saturatingPow (w.refTime.setWidth 128) 1).toNat = w.refTime.toNat := by
  have := w.refTime.isLt
  rw [Saturating.toNat_saturatingPow, toNat_setWidth_of_le (show 64 ≤ 128 by decide), Nat.pow_one]
  omega

theorem toNat_weightToFee_coefficient (m : Balance) (ebw w : Weight) :
    (weightToFee [coefficient m ebw] w).toNat =
      min (min ((coefficient m ebw).coeffFrac.mul
          (Saturating.saturatingPow (w.refTime.setWidth 128) 1)).toNat (2 ^ 128 - 1) +
        min ((100 * m).toNat / ebw.refTime.toNat * w.refTime.toNat) (2 ^ 128 - 1))
        (2 ^ 128 - 1) := by
  have hzero : (0 : Balance).toNat = 0 := rfl
  change (Saturating.saturatingAdd (Saturating.saturatingAdd 0 _)
    (Saturating.saturatingMul (coefficient m ebw).coeffInteger
      (Saturating.saturatingPow (w.refTime.setWidth 128) 1))).toNat = _
  rw [Saturating.toNat_saturatingAdd, Saturating.toNat_saturatingAdd,
    Saturating.toNat_saturatingMul, toNat_saturatingPow_one, coeffInteger_coefficient, hzero,
    Nat.zero_add]
  rfl

theorem mul_round_coefficient (m : Balance) {ebw : Weight} (h : 0 < ebw.refTime.toNat)
    (w : Weight) :
    w.refTime.toNat * ((100 * m).toNat % ebw.refTime.toNat * 1000000000 / ebw.refTime.toNat) ≤
        ((coefficient m ebw).coeffFrac.mul
          (Saturating.saturatingPow (w.refTime.setWidth 128) 1)).toNat * 1000000000 +
          500000000 ∧
      ((coefficient m ebw).coeffFrac.mul
          (Saturating.saturatingPow (w.refTime.setWidth 128) 1)).toNat * 1000000000 <
        w.refTime.toNat *
          ((100 * m).toNat % ebw.refTime.toNat * 1000000000 / ebw.refTime.toNat) + 500000000 := by
  have hround := Perbill.mul_round (coefficient m ebw).coeffFrac
    (Saturating.saturatingPow (w.refTime.setWidth 128) 1)
  rwa [toNat_saturatingPow_one, coeffFrac_parts_coefficient h] at hround

theorem quotient_in_billionths (p : Nat) {q : Nat} (hq : 0 < q) :
    p / q * 1000000000 + p % q * 1000000000 / q = p * 1000000000 / q := by
  have hp : p * 1000000000 = p % q * 1000000000 + p / q * 1000000000 * q := by
    conv_lhs => rw [← Nat.div_add_mod p q]
    ring
  rw [hp, Nat.add_mul_div_right _ _ hq, Nat.add_comm]

theorem rounded_price_lt {q w r cint parts frac f : Nat} (hq : 0 < q)
    (hparts : parts * q ≤ r * 1000000000) (hfrac : frac * 1000000000 < w * parts + 500000000)
    (hf : f ≤ frac + cint * w) : 2 * (f * q) < 2 * (w * (q * cint + r)) + q := by
  have h1 := Nat.mul_lt_mul_of_pos_right hfrac hq
  have h2 := Nat.mul_le_mul_left w hparts
  have h3 := Nat.mul_le_mul_right q hf
  linarith

theorem price_le_rounded {q w r cint parts frac f : Nat}
    (hparts : r * 1000000000 < parts * q + q) (hfrac : w * parts ≤ frac * 1000000000 + 500000000)
    (hf : f = frac + cint * w) :
    2 * 1000000000 * (w * (q * cint + r)) ≤
      2 * 1000000000 * (f * q) + 1000000000 * q + 2 * (w * q) := by
  subst hf
  have h1 := Nat.mul_le_mul_right q hfrac
  have h2 := Nat.mul_le_mul_left w hparts.le
  linarith

end WeightToFee

open WeightToFee

/-- Unless the base weight's reference time is zero, the polynomial is one positive coefficient
of degree one, whose integer and fractional parts are the price of a unit of reference time,
`100 * MICROAFT / ExtrinsicBaseWeight::ref_time`, truncated to billionths. -/
theorem fee_polynomial_slope (m : Balance) (ebw : Weight) (h : 0 < ebw.refTime.toNat) :
    ∃ c, polynomial m ebw = some [c] ∧ c.degree = 1 ∧ c.negative = false ∧
      c.coeffInteger.toNat * 1000000000 + c.coeffFrac.parts =
        (100 * m).toNat * 1000000000 / ebw.refTime.toNat := by
  refine ⟨coefficient m ebw, polynomial_of_pos h, rfl, rfl, ?_⟩
  rw [coeffInteger_coefficient, coeffFrac_parts_coefficient h]
  exact quotient_in_billionths _ h

theorem fee_polynomial_slope_ref_time_125000000 :
    0 < (125000000 : BitVec 64).toNat ∧
      ∃ c, polynomial 1000000 ⟨125000000, 0⟩ = some [c] ∧ c.degree = 1 ∧ c.negative = false ∧
        c.coeffInteger.toNat * 1000000000 + c.coeffFrac.parts =
          (100 * 1000000 : Balance).toNat * 1000000000 / (125000000 : BitVec 64).toNat :=
  ⟨by decide, fee_polynomial_slope 1000000 ⟨125000000, 0⟩ (by decide)⟩

/-- A weight of one base extrinsic is charged `100 * MICROAFT` exactly, for every `MICROAFT`
and every base weight whose reference time is positive and at most half a billion. -/
theorem fee_extrinsic_base_weight (m : Balance) (ebw : Weight) (h0 : 0 < ebw.refTime.toNat)
    (h : ebw.refTime.toNat ≤ 500000000) : fee m ebw ebw = some (100 * m) := by
  rw [fee_of_pos h0]
  refine congrArg some (BitVec.eq_of_toNat_eq ?_)
  have hfrac := mul_round_coefficient m h0 ebw
  -- the fractional part is the remainder `r` of the price, and the integer part `q * (p / q)`
  have hdiv := Nat.div_add_mod ((100 * m).toNat % ebw.refTime.toNat * 1000000000) ebw.refTime.toNat
  have hmod := Nat.mod_lt ((100 * m).toNat % ebw.refTime.toNat * 1000000000) h0
  have hint := Nat.div_add_mod (100 * m).toNat ebw.refTime.toNat
  have hp := (100 * m).isLt
  rw [Nat.mul_comm] at hint
  rw [toNat_weightToFee_coefficient]
  omega

theorem fee_extrinsic_base_weight_ref_time_125000000 :
    0 < (125000000 : BitVec 64).toNat ∧ (125000000 : BitVec 64).toNat ≤ 500000000 ∧
      fee 1000000 ⟨125000000, 0⟩ ⟨125000000, 0⟩ = some (100 * 1000000) :=
  ⟨by decide, by decide, fee_extrinsic_base_weight 1000000 ⟨125000000, 0⟩ (by decide) (by decide)⟩

/-- For every `MICROAFT` and base weight, a heavier weight is never charged less. -/
theorem fee_mono (m : Balance) (ebw : Weight) {w w' : Weight} {f f' : Balance}
    (hw : w.refTime.toNat ≤ w'.refTime.toNat) (hf : fee m ebw w = some f)
    (hf' : fee m ebw w' = some f') : f ≤ f' := by
  cases hp : polynomial m ebw with
  | none => simp [fee, hp] at hf
  | some poly =>
    simp only [fee, hp, Option.map_some', Option.some.injEq] at hf hf'
    rw [← hf, ← hf', BitVec.le_def]
    exact weightToFee_mono (negative_of_polynomial hp) hw

theorem fee_mono_one_two :
    (1 : BitVec 64).toNat ≤ (2 : BitVec 64).toNat ∧
      fee 1000000 ⟨125000000, 0⟩ ⟨1, 0⟩ = some 1 ∧ fee 1000000 ⟨125000000, 0⟩ ⟨2, 0⟩ = some 2 ∧
      (1 : Balance) ≤ 2 :=
  have h1 : fee 1000000 ⟨125000000, 0⟩ ⟨1, 0⟩ = some 1 := by decide
  have h2 : fee 1000000 ⟨125000000, 0⟩ ⟨2, 0⟩ = some 2 := by decide
  ⟨by decide, h1, h2, fee_mono 1000000 ⟨125000000, 0⟩ (by decide) h1 h2⟩

/-- The fee of a weight `w` never exceeds its exact price `w * 100 * MICROAFT / q`, for `q` the
base weight's reference time, by half a unit or more. -/
theorem fee_le_price (m : Balance) (ebw w : Weight) {f : Balance} (hf : fee m ebw w = some f) :
    2 * (f.toNat * ebw.refTime.toNat) <
      2 * (w.refTime.toNat * (100 * m).toNat) + ebw.refTime.toNat := by
  obtain ⟨hq, rfl⟩ := fee_eq_some hf
  rw [← Nat.div_add_mod (100 * m).toNat ebw.refTime.toNat]
  refine rounded_price_lt hq (Nat.div_mul_le_self _ _) (mul_round_coefficient m hq w).2 ?_
  rw [toNat_weightToFee_coefficient]
  omega

theorem fee_le_price_weight_one :
    fee 1000000 ⟨125000000, 0⟩ ⟨1, 0⟩ = some 1 ∧
      2 * ((1 : Balance).toNat * (125000000 : BitVec 64).toNat) <
        2 * ((1 : BitVec 64).toNat * (100 * 1000000 : Balance).toNat) +
          (125000000 : BitVec 64).toNat :=
  have h1 : fee 1000000 ⟨125000000, 0⟩ ⟨1, 0⟩ = some 1 := by decide
  ⟨h1, fee_le_price 1000000 ⟨125000000, 0⟩ ⟨1, 0⟩ h1⟩

/-- Unless a unit of reference time costs more than `2 ^ 64`, every weight has a fee, and it
falls short of the exact price by at most half a unit plus a billionth of the weight. -/
theorem price_le_fee (m : Balance) (ebw w : Weight) (hq : 0 < ebw.refTime.toNat)
    (hp : (100 * m).toNat ≤ 2 ^ 64 * ebw.refTime.toNat) :
    ∃ f, fee m ebw w = some f ∧
      2 * 1000000000 * (w.refTime.toNat * (100 * m).toNat) ≤
        2 * 1000000000 * (f.toNat * ebw.refTime.toNat) + 1000000000 * ebw.refTime.toNat +
          2 * (w.refTime.toNat * ebw.refTime.toNat) := by
  refine ⟨_, fee_of_pos hq w, ?_⟩
  have hround := mul_round_coefficient m hq w
  have hfee := toNat_weightToFee_coefficient m ebw w
  have hw := w.refTime.isLt
  generalize ((coefficient m ebw).coeffFrac.mul
    (Saturating.saturatingPow (w.refTime.setWidth 128) 1)).toNat = frac at hround hfee
  generalize (weightToFee [coefficient m ebw] w).toNat = f at hfee ⊢
  generalize (100 * m).toNat = p at hround hfee hp ⊢
  generalize ebw.refTime.toNat = q at hq hround hfee hp ⊢
  generalize w.refTime.toNat = x at hround hfee hw ⊢
  -- the exact price stays below `Balance::MAX`, so nothing saturates
  have hexact := rounded_price_lt hq (Nat.div_mul_le_self _ _) hround.2
    (Nat.le_refl (frac + p / q * x))
  rw [Nat.div_add_mod] at hexact
  have hxp : x * p ≤ (2 ^ 64 - 1) * (2 ^ 64 * q) := Nat.mul_le_mul (by omega) hp
  have hsum : frac + p / q * x < 2 ^ 128 - 1 :=
    Nat.lt_of_mul_lt_mul_right (show (frac + p / q * x) * q < (2 ^ 128 - 1) * q by omega)
  have hf : f = frac + p / q * x := by omega
  have hbound := price_le_rounded (Nat.lt_div_mul_add hq) hround.1 hf
  rwa [Nat.div_add_mod] at hbound

theorem price_le_fee_weight_one :
    0 < (125000000 : BitVec 64).toNat ∧
      (100 * 1000000 : Balance).toNat ≤ 2 ^ 64 * (125000000 : BitVec 64).toNat ∧
      ∃ f, fee 1000000 ⟨125000000, 0⟩ ⟨1, 0⟩ = some f ∧
        2 * 1000000000 * ((1 : BitVec 64).toNat * (100 * 1000000 : Balance).toNat) ≤
          2 * 1000000000 * (f.toNat * (125000000 : BitVec 64).toNat) +
            1000000000 * (125000000 : BitVec 64).toNat +
            2 * ((1 : BitVec 64).toNat * (125000000 : BitVec 64).toNat) :=
  ⟨by decide, by decide, price_le_fee 1000000 ⟨125000000, 0⟩ ⟨1, 0⟩ (by decide) (by decide)⟩

end Allfeat
