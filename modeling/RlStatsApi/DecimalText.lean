import RlStatsApi.BinaryFloat
import RlStatsApi.TextLines

/-!
# Decimal texts

Integers are read by the rule of machine integers: an optional sign, at
least one digit, and a value in range. Floating-point data are read from the
usual decimal grammar, including infinities and NaN in any letter case, and
are rounded to the nearest datum. A datum is written with a fixed number of
places after the point.
-/

set_option autoImplicit false

namespace RlStatsApi.DecimalText
open RlStatsApi.TextLines RlStatsApi.BinaryFloat

def parseDigits (s : Text) : Option ℕ :=
  if s ≠ [] ∧ s.all Char.isDigit = true then some (Nat.ofDigitChars 10 s 0) else none

def dropPlus : Text → Text
  | '+'::s => s
  | s => s

/-- An unsigned machine integer below `bound`. -/
def parseUnsigned (bound : ℕ) (s : Text) : Option (Fin bound) :=
  (parseDigits (dropPlus s)).bind (fun n => if h : n < bound then some ⟨n,h⟩ else none)

/-- A signed machine integer of magnitude at most `bound`, which itself is
allowed for negative numbers only. -/
def parseSigned (bound : ℕ) (s : Text) : Option ℤ :=
  match s with
  | '-'::t => ((parseDigits t).filter (fun n => decide (n ≤ bound))).map (fun n => -(n:ℤ))
  | _ => (parseUnsigned bound s).map (fun n => (n.val:ℤ))

def takeSign : Text → Bool × Text
  | '-'::s => (true,s)
  | '+'::s => (false,s)
  | s => (false,s)

/-- The fraction digits after a point, when there is one. -/
def takeFraction : Text → Text × Text
  | '.'::s => s.span Char.isDigit
  | s => ([],s)

def takeExponent : Text → Option ℤ
  | [] => some 0
  | c::s =>
    if c = 'e' ∨ c = 'E' then
      let t := takeSign s
      (parseDigits t.2).map (fun n => signed t.1 n)
    else none

/-- The datum nearest to the digits `n` scaled by a power of ten. -/
def scaled (F : Format) (s : Bool) (n : ℕ) (e : ℤ) : Datum F :=
  if 0 ≤ e then BinaryFloat.round F s (n*10^e.toNat*2^F.scale) 1
  else BinaryFloat.round F s (n*2^F.scale) (10^(-e).toNat)

def parseNumber (F : Format) (s : Bool) (t : Text) : Option (Datum F) :=
  let whole := t.span Char.isDigit
  let fraction := takeFraction whole.2
  if whole.1 = [] ∧ fraction.1 = [] then none
  else (takeExponent fraction.2).map (fun e =>
    scaled F s (Nat.ofDigitChars 10 (whole.1++fraction.1) 0) (e-fraction.1.length))

def parseSpecial (F : Format) (s : Bool) (t : Text) : Option (Datum F) :=
  let u := t.map Char.toLower
  if u = ['i','n','f'] ∨ u = ['i','n','f','i','n','i','t','y'] then some (.infinite s)
  else if u = ['n','a','n'] then some .nan
  else none

def parseFloat (F : Format) (s : Text) : Option (Datum F) :=
  let t := takeSign s
  (parseNumber F t.1 t.2).or (parseSpecial F t.1 t.2)

def signText (s : Bool) : Text := if s then ['-'] else []

def signedText (i : ℤ) : Text := signText (decide (i < 0))++Nat.toDigits 10 i.natAbs

/-- `n` units of the last of `places` decimal places. -/
def fixedText (places n : ℕ) : Text :=
  Nat.toDigits 10 (n/10^places)++ '.'::(Nat.toDigits 10 (n%10^places)).leftpad places '0'

def toFixed {F : Format} (places : ℕ) : Datum F → Text
  | .nan => ['N','a','N']
  | .infinite s => signText s++['i','n','f']
  | .finite s m k _ => signText s++fixedText places (roundHalfEven (m*2^k*10^places) (2^F.scale))

theorem toDigits_isDigit (n : ℕ) : (Nat.toDigits 10 n).all Char.isDigit = true := by
  rw [List.all_eq_true]
  exact fun c hc => Nat.isDigit_of_mem_toDigits (by decide) (by decide) hc

theorem parseDigits_toDigits (n : ℕ) : parseDigits (Nat.toDigits 10 n) = some n := by
  rw [parseDigits, if_pos ⟨Nat.toDigits_ne_nil,toDigits_isDigit n⟩, Nat.ofDigitChars_ten_toDigits]

theorem toDigits_injective (m n : ℕ) (h : Nat.toDigits 10 m = Nat.toDigits 10 n) : m = n := by
  have hm := Nat.ofDigitChars_ten_toDigits (n := m)
  rwa [h, Nat.ofDigitChars_ten_toDigits, eq_comm] at hm

theorem minus_mem_signedText (i : ℤ) : '-' ∈ signedText i ↔ i < 0 := by
  have hd : '-' ∉ Nat.toDigits 10 i.natAbs := by
    intro hm
    exact absurd (Nat.isDigit_of_mem_toDigits (by decide) (by decide) hm) (by decide)
  by_cases h : i < 0 <;> simp [signedText, signText, h, hd]

theorem underscore_not_mem_signedText (i : ℤ) : '_' ∉ signedText i := by
  have hd : '_' ∉ Nat.toDigits 10 i.natAbs := Nat.underscore_not_in_toDigits
  by_cases h : i < 0 <;> simp [signedText, signText, h, hd]

theorem signedText_injective (i j : ℤ) (h : signedText i = signedText j) : i = j := by
  have hs : i < 0 ↔ j < 0 := by
    rw [← minus_mem_signedText, ← minus_mem_signedText, h]
  have hn : Nat.toDigits 10 i.natAbs = Nat.toDigits 10 j.natAbs := by
    by_cases hi : i < 0
    · simpa [signedText, signText, hi, hs.mp hi] using h
    · simpa [signedText, signText, hi, hs.not.mp hi] using h
  have := toDigits_injective _ _ hn
  omega

theorem dropPlus_digits (s : Text) (h : s.all Char.isDigit = true) : dropPlus s = s := by
  unfold dropPlus
  split
  · exact absurd h (by simp)
  · rfl

theorem takeSign_digits (s : Text) (h : s.all Char.isDigit = true) (hne : s ≠ []) (t : Text) :
    takeSign (s++t) = (false,s++t) := by
  obtain ⟨c,s,rfl⟩ := List.exists_cons_of_ne_nil hne
  simp only [List.all_cons, Bool.and_eq_true] at h
  unfold takeSign
  split
  · next he => cases he; exact absurd h.1 (by decide)
  · next he => cases he; exact absurd h.1 (by decide)
  · rfl

theorem parseUnsigned_toDigits (bound : ℕ) (n : Fin bound) :
    parseUnsigned bound (Nat.toDigits 10 n) = some n := by
  rw [parseUnsigned, dropPlus_digits _ (toDigits_isDigit n), parseDigits_toDigits]
  simp

theorem span_digits (s t : Text) (h : s.all Char.isDigit = true)
    (ht : ∀ c, t.head? = some c → c.isDigit = false) : (s++t).span Char.isDigit = (s,t) := by
  rw [List.span_eq_takeWhile_dropWhile]
  have hs : ∀ c ∈ s, Char.isDigit c = true := by simpa using h
  rw [List.takeWhile_append_of_pos hs, List.dropWhile_append_of_pos hs]
  cases t with
  | nil => simp
  | cons c t => simp [ht c rfl]

/-- A number without an exponent: digits, and possibly a point and more digits. -/
theorem parseNumber_plain (F : Format) (s : Bool) (whole fraction tail : Text)
    (hw : whole.all Char.isDigit = true) (hne : whole ≠ [])
    (hf : fraction.all Char.isDigit = true) (ht : tail = [] ∨ tail = '.'::fraction) :
    ∃ x, parseNumber F s (whole++tail) = some x := by
  have hspan : (whole++tail).span Char.isDigit = (whole,tail) := by
    apply span_digits _ _ hw
    rcases ht with rfl | rfl
    · simp
    · intro c hc
      simp only [List.head?_cons, Option.some.injEq] at hc
      subst hc
      decide
  have hend : (takeFraction tail).2 = [] := by
    rcases ht with rfl | rfl
    · rfl
    · have h := span_digits fraction [] hf (by simp)
      rw [List.append_nil] at h
      rw [takeFraction, h]
  refine ⟨scaled F s (Nat.ofDigitChars 10 (whole++(takeFraction tail).1) 0)
    (0-(takeFraction tail).1.length),?_⟩
  simp only [parseNumber, hspan, hne, false_and, if_false, hend, takeExponent, Option.map_some]

end RlStatsApi.DecimalText
