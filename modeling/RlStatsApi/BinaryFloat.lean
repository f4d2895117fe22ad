import Mathlib.Algebra.Order.Field.Basic
import Mathlib.Data.Nat.Log
import Mathlib.Data.Rat.Cast.Order
import Mathlib.Tactic.FieldSimp
import Mathlib.Tactic.Linarith
import Mathlib.Tactic.NormNum
import Mathlib.Tactic.Positivity
import Mathlib.Tactic.Ring

/-!
# Binary floating-point data

A finite datum is a sign, a significand and an exponent counted from the
quantum of its format, the smallest positive value. The constructor carries
the proof that the pair is canonical, so that equal data have equal fields
and no two data differ only in their representation. Conversions round to
the nearest datum, ties to the even significand, and overflow to infinity.
-/

set_option autoImplicit false

namespace RlStatsApi.BinaryFloat

structure Format where
  precision : ℕ
  /-- The largest exponent of a finite datum. -/
  top : ℕ
  /-- The quantum is `2 ^ -scale`. -/
  scale : ℕ
  precision_pos : 0 < precision

def Format.Canonical (F : Format) (m k : ℕ) : Prop :=
  m < 2^F.precision ∧ k ≤ F.top ∧ (k = 0 ∨ 2^(F.precision-1) ≤ m)

instance (F : Format) (m k : ℕ) : Decidable (F.Canonical m k) :=
  inferInstanceAs (Decidable (_ ∧ _ ∧ _))

inductive Datum (F : Format) where
  | nan
  | infinite (negative : Bool)
  | finite (negative : Bool) (m k : ℕ) (h : F.Canonical m k)
  deriving DecidableEq

def binary32 : Format := ⟨24, 253, 149, by decide⟩

def binary64 : Format := ⟨53, 2045, 1074, by decide⟩

variable {F : Format}

def signed (negative : Bool) (n : ℕ) : ℤ := if negative then -n else n

def pack (F : Format) (negative : Bool) (m k : ℕ) : Datum F :=
  if h : F.Canonical m k then .finite negative m k h else .infinite negative

def roundHalfEven (n d : ℕ) : ℕ :=
  if d < 2*(n%d) ∨ (2*(n%d) = d ∧ (n/d)%2 = 1) then n/d+1 else n/d

/-- The exponent at which the integer part of `n/d` fits the precision. -/
def excess (F : Format) (n d : ℕ) : ℕ := Nat.log2 (n/d)+1-F.precision

/-- The datum nearest to `n/d` quanta. -/
def round (F : Format) (negative : Bool) (n d : ℕ) : Datum F :=
  let k := excess F n d
  let m := roundHalfEven n (d*2^k)
  if m = 2^F.precision then pack F negative (2^(F.precision-1)) (k+1)
  else pack F negative m k

def ofInt (F : Format) (i : ℤ) : Datum F :=
  round F (decide (i < 0)) (i.natAbs*2^F.scale) 1

def zero (F : Format) : Datum F := round F false 0 1

namespace Datum

def isFinite : Datum F → Bool
  | .finite .. => true
  | _ => false

/-- The signed number of quanta of a finite datum. -/
def quanta : Datum F → ℤ
  | .finite s m k _ => signed s (m*2^k)
  | _ => 0

def toRat (x : Datum F) : ℚ := x.quanta/(2:ℚ)^F.scale

/-- The comparison of IEEE 754: no datum is below or above a NaN. -/
def lt : Datum F → Datum F → Bool
  | .nan, _ => false
  | _, .nan => false
  | .infinite s, .infinite t => s && !t
  | .infinite s, .finite .. => s
  | .finite .., .infinite t => !t
  | .finite s m k _, .finite t n l _ => decide (signed s (m*2^k) < signed t (n*2^l))

def isNan : Datum F → Bool
  | .nan => true
  | _ => false

def le (x y : Datum F) : Bool := !x.isNan && !y.isNan && !(y.lt x)

def clamp (x lo hi : Datum F) : Datum F :=
  let x := if x.lt lo then lo else x
  if hi.lt x then hi else x

/-- A saturating conversion to an integer range, NaN going to zero. The
magnitude in quanta is first turned into an integer by `f`. -/
def toIntWith (f : ℕ → ℕ) (lo hi : ℤ) : Datum F → ℤ
  | .nan => 0
  | .infinite s => if s then lo else hi
  | .finite s m k _ => max lo (min hi (signed s (f (m*2^k))))

def truncated (F : Format) (q : ℕ) : ℕ := q/2^F.scale

/-- Halves are rounded away from zero. -/
def halfAway (F : Format) (q : ℕ) : ℕ := (2*q+2^F.scale)/(2*2^F.scale)

/-- The division of IEEE 754. -/
def div : Datum F → Datum F → Datum F
  | .nan, _ => .nan
  | _, .nan => .nan
  | .infinite _, .infinite _ => .nan
  | .infinite s, .finite t _ _ _ => .infinite (s != t)
  | .finite s _ _ _, .infinite t => round F (s != t) 0 1
  | .finite s m k _, .finite t n l _ =>
    if n = 0 then if m = 0 then .nan else .infinite (s != t)
    else round F (s != t) (m*2^k*2^F.scale) (n*2^l)

@[simp] theorem isFinite_finite (s : Bool) (m k : ℕ) (h : F.Canonical m k) :
    isFinite (.finite s m k h) = true := rfl

theorem toIntWith_range (f : ℕ → ℕ) (lo hi : ℤ) (h0 : lo ≤ 0) (h1 : 0 ≤ hi) (x : Datum F) :
    lo ≤ x.toIntWith f lo hi ∧ x.toIntWith f lo hi ≤ hi := by
  cases x with
  | nan => exact ⟨h0,h1⟩
  | infinite s => cases s <;> simp [toIntWith] <;> omega
  | finite s m k h => simp only [toIntWith]; omega

end Datum

theorem roundHalfEven_bounds (n d : ℕ) :
    n/d ≤ roundHalfEven n d ∧ roundHalfEven n d ≤ n/d+1 := by
  unfold roundHalfEven
  split_ifs <;> omega

theorem roundHalfEven_exact (q d : ℕ) (hd : 0 < d) : roundHalfEven (q*d) d = q := by
  have hm : q*d%d = 0 := Nat.mul_mod_left q d
  have hq : q*d/d = q := Nat.mul_div_cancel q hd
  simp only [roundHalfEven, hm, hq]
  split_ifs with h <;> omega

theorem zero_finite (F : Format) : ∃ h, zero F = .finite false 0 0 h := by
  have hp := F.precision_pos
  have hc : F.Canonical 0 0 := ⟨by positivity,Nat.zero_le _,.inl rfl⟩
  have hk : excess F 0 1 = 0 := by
    simp [excess]
    omega
  have hr : roundHalfEven 0 (1*2^0) = 0 := rfl
  have hne : (0:ℕ) ≠ 2^F.precision := (pow_pos (by decide) _).ne
  exact ⟨hc,by simp only [zero, round, hk, hr, if_neg hne, pack, dif_pos hc]⟩

theorem toRat_nonneg (x : Datum F) (h : x.lt (zero F) = false) (hx : x.isFinite = true) :
    0 ≤ x.toRat := by
  obtain ⟨hc,hz⟩ := zero_finite F
  cases x with
  | finite s m k hk =>
    rw [hz] at h
    have hq : 0 ≤ signed s (m*2^k) := by
      simp only [Datum.lt, decide_eq_false_iff_not, not_lt] at h
      simpa [signed] using h
    rw [Datum.toRat]
    have hr : (0:ℚ) ≤ (Datum.finite s m k hk).quanta := by exact_mod_cast hq
    positivity
  | _ => cases hx

theorem integer_part_lt (F : Format) (n d : ℕ) : n/d/2^(excess F n d) < 2^F.precision := by
  have hl : n/d < 2^(Nat.log2 (n/d)+1) := Nat.lt_log2_self
  rw [Nat.div_lt_iff_lt_mul (by positivity), ← pow_add]
  refine hl.trans_le (Nat.pow_le_pow_right (by decide) ?_)
  unfold excess
  omega

theorem integer_part_ge (F : Format) (n d : ℕ) (hk : excess F n d ≠ 0) :
    2^(F.precision-1) ≤ n/d/2^(excess F n d) := by
  have hp := F.precision_pos
  have hne : n/d ≠ 0 := by
    intro h0
    simp [excess, h0] at hk
    omega
  rw [Nat.le_div_iff_mul_le (by positivity), ← pow_add]
  refine le_trans (Nat.pow_le_pow_right (by decide) ?_) (Nat.log2_self_le hne)
  unfold excess at *
  omega

/-- Away from overflow the rounded significand and exponent are canonical;
a carry out of the precision moves to the next exponent. -/
theorem round_canonical (F : Format) (s : Bool) (n d : ℕ)
    (h : excess F n d+1 ≤ F.top) : ∃ m k hc, round F s n d = .finite s m k hc := by
  have hb := roundHalfEven_bounds n (d*2^(excess F n d))
  rw [← Nat.div_div_eq_div_mul] at hb
  have hlt := integer_part_lt F n d
  have hp := F.precision_pos
  have hpow : 2^(F.precision-1) < 2^F.precision := Nat.pow_lt_pow_right (by decide) (by omega)
  unfold round
  by_cases hm : roundHalfEven n (d*2^(excess F n d)) = 2^F.precision
  · have hc : F.Canonical (2^(F.precision-1)) (excess F n d+1) := ⟨hpow,h,Or.inr le_rfl⟩
    exact ⟨_,_,hc,by simp only [hm, if_true, pack, dif_pos hc]⟩
  · have hc : F.Canonical (roundHalfEven n (d*2^(excess F n d))) (excess F n d) := by
      refine ⟨by omega,by omega,?_⟩
      by_cases hk : excess F n d = 0
      · exact Or.inl hk
      · exact Or.inr ((integer_part_ge F n d hk).trans hb.1)
    exact ⟨_,_,hc,by simp only [if_neg hm, pack, dif_pos hc]⟩

theorem round_isFinite (F : Format) (s : Bool) (n d : ℕ) (h : excess F n d+1 ≤ F.top) :
    (round F s n d).isFinite = true := by
  obtain ⟨m,k,hc,he⟩ := round_canonical F s n d h
  rw [he, Datum.isFinite_finite]

theorem excess_le (F : Format) (n b : ℕ) (hn : n < 2^(F.precision+b)) :
    excess F n 1 ≤ b := by
  unfold excess
  rw [Nat.div_one]
  by_cases h0 : n = 0
  · have hp := F.precision_pos
    simp [h0]
    omega
  · have hl := (Nat.log2_lt h0).mpr hn
    omega

theorem ofInt_isFinite (F : Format) (i : ℤ) (b : ℕ)
    (hi : i.natAbs < 2^(F.precision+b)) (hb : b+F.scale+1 ≤ F.top) :
    (ofInt F i).isFinite = true := by
  apply round_isFinite
  have hn : i.natAbs*2^F.scale < 2^(F.precision+(b+F.scale)) := by
    rw [← add_assoc, pow_add _ (F.precision+b)]
    exact Nat.mul_lt_mul_of_pos_right hi (by positivity)
  have hx := excess_le F _ (b+F.scale) hn
  omega

/-- An integer of at most the precision's size is represented exactly. -/
theorem round_exact (F : Format) (s : Bool) (n : ℕ) (hn : n ≤ 2^F.precision)
    (ht : F.scale+2 ≤ F.top) : (round F s (n*2^F.scale) 1).quanta = signed s (n*2^F.scale) := by
  have hp := F.precision_pos
  by_cases htop : n = 2^F.precision
  · -- The carry case: the significand is a power of two one exponent up.
    have he : excess F (n*2^F.scale) 1 = F.scale+1 := by
      have hl : Nat.log2 (2^(F.precision+F.scale)) = F.precision+F.scale := Nat.log2_two_pow
      rw [excess, Nat.div_one, htop, ← pow_add, hl]
      omega
    have hsplit : n*2^F.scale = 2^(F.precision-1)*(1*2^(F.scale+1)) := by
      rw [htop, one_mul, ← pow_add, ← pow_add]
      congr 1
      omega
    have hr : roundHalfEven (n*2^F.scale) (1*2^(F.scale+1)) = 2^(F.precision-1) := by
      rw [hsplit]
      exact roundHalfEven_exact _ _ (by positivity)
    have hpow : 2^(F.precision-1) < 2^F.precision :=
      Nat.pow_lt_pow_right (by decide) (by omega)
    have hc : F.Canonical (2^(F.precision-1)) (F.scale+1) := ⟨hpow,by omega,Or.inr le_rfl⟩
    simp only [round, he, hr, if_neg hpow.ne, pack, dif_pos hc, Datum.quanta]
    rw [hsplit, one_mul]
  · have hlt : n < 2^F.precision := lt_of_le_of_ne hn htop
    have hk : excess F (n*2^F.scale) 1 ≤ F.scale := by
      apply excess_le
      rw [pow_add]
      exact Nat.mul_lt_mul_of_pos_right hlt (by positivity)
    obtain ⟨m,k,hc,hf⟩ := round_canonical F s (n*2^F.scale) 1 (by omega)
    have hi := integer_part_lt F (n*2^F.scale) 1
    simp only [round] at hf ⊢
    generalize excess F (n*2^F.scale) 1 = x at *
    have hsplit : n*2^F.scale = n*2^(F.scale-x)*2^x := by
      rw [mul_assoc, ← pow_add]
      congr 2
      omega
    have hr : roundHalfEven (n*2^F.scale) (1*2^x) = n*2^(F.scale-x) := by
      rw [hsplit, one_mul]
      exact roundHalfEven_exact _ _ (by positivity)
    have hne : n*2^(F.scale-x) ≠ 2^F.precision := by
      rw [Nat.div_one, hsplit, Nat.mul_div_cancel _ (by positivity)] at hi
      exact hi.ne
    simp only [hr, if_neg hne, pack] at hf ⊢
    split_ifs at hf ⊢ with hcan
    simp only [Datum.quanta]
    rw [hsplit]

theorem ofInt_toRat (F : Format) (i : ℤ) (hi : i.natAbs ≤ 2^F.precision)
    (ht : F.scale+2 ≤ F.top) : (ofInt F i).toRat = i := by
  have hz : (2:ℚ)^F.scale ≠ 0 := by positivity
  rw [Datum.toRat, ofInt, round_exact F _ _ hi ht, div_eq_iff hz]
  have hs : signed (decide (i < 0)) (i.natAbs*2^F.scale) = i*2^F.scale := by
    by_cases hneg : i < 0
    · simp only [signed, hneg, decide_true, if_true]
      push_cast
      rw [abs_of_neg hneg]
      ring
    · simp only [signed, hneg, decide_false, Bool.false_eq_true, if_false]
      push_cast
      rw [abs_of_nonneg (not_lt.mp hneg)]
  rw [hs]
  push_cast
  ring

end RlStatsApi.BinaryFloat
