import RlStatsApi.BinaryFloat
import RlStatsApi.SortedAssoc

/-!
# JSON values

A number is a machine integer or a finite binary64 datum, and the
constructors carry the range. An object is an association list; a canonical
value has strictly sorted keys at every level, so that equal objects are
equal lists. Values that come from outside are canonical by their type.
-/

set_option autoImplicit false

namespace RlStatsApi.JsonValue
open RlStatsApi.BinaryFloat

abbrev F64 := Datum binary64

structure I64 where
  val : ℤ
  lower : -2^63 ≤ val
  upper : val < 2^63
  deriving DecidableEq

instance : OfNat I64 0 := ⟨⟨0, by decide, by decide⟩⟩

instance : OfNat I64 1 := ⟨⟨1, by decide, by decide⟩⟩

abbrev U64 := Fin (2^64)

instance u64_neZero : NeZero (2^64) := ⟨by decide⟩

inductive Number where
  | posInt (n : ℕ) (h : n < 2^64)
  | negInt (i : ℤ) (h : -2^63 ≤ i ∧ i < 0)
  | float (x : F64) (h : x.isFinite = true)
  deriving DecidableEq

inductive Value where
  | null
  | bool (b : Bool)
  | number (n : Number)
  | string (s : String)
  | array (xs : List Value)
  | object (m : List (String × Value))

abbrev Members := List (String × Value)

namespace Number

def ofI64 (i : I64) : Number :=
  if h : i.val < 0 then .negInt i.val ⟨i.lower,h⟩
  else .posInt i.val.toNat (by have := i.upper; omega)

def ofU64 (n : U64) : Number := .posInt n.val n.isLt

def asI64 : Number → Option I64
  | .posInt n _ => if h : n < 2^63 then some ⟨n, by omega, by exact_mod_cast h⟩ else none
  | .negInt i h => some ⟨i, h.1, by omega⟩
  | .float _ _ => none

def asU64 : Number → Option U64
  | .posInt n h => some ⟨n,h⟩
  | _ => none

/-- An integer goes to the nearest binary64 datum. -/
def asF64 : Number → F64
  | .posInt n _ => ofInt binary64 n
  | .negInt i _ => ofInt binary64 i
  | .float x _ => x

/-- The integer a number stands for, when it is written as one. -/
def asInteger : Number → Option ℤ
  | .posInt n _ => some n
  | .negInt i _ => some i
  | .float _ _ => none

/-- The value of a number; there are no others than finite ones. -/
def toRat : Number → ℚ
  | .posInt n _ => n
  | .negInt i _ => i
  | .float x _ => x.toRat

theorem asI64_ofI64 (i : I64) : (ofI64 i).asI64 = some i := by
  have hl := i.lower
  have hu := i.upper
  unfold ofI64
  split_ifs with h
  · rfl
  · have hn : i.val.toNat < 2^63 := by omega
    have hv : (i.val.toNat : ℤ) = i.val := by omega
    simp only [asI64, dif_pos hn, hv]

theorem ofI64_asI64 (n : Number) (i : I64) (h : n.asI64 = some i) : ofI64 i = n := by
  cases n with
  | posInt n hn =>
    simp only [asI64] at h
    split_ifs at h
    cases h
    simp [ofI64, Int.not_lt.mpr (Int.natCast_nonneg n)]
  | negInt j hj =>
    cases h
    simp [ofI64, hj.2]
  | float x hx => cases h

theorem asF64_isFinite (n : Number) : n.asF64.isFinite = true := by
  cases n with
  | posInt n h =>
    apply ofInt_isFinite binary64 _ 11
    · rw [Int.natAbs_natCast]
      exact h
    · decide
  | negInt i h =>
    apply ofInt_isFinite binary64 _ 11
    · change i.natAbs < 2^64
      omega
    · decide
  | float x h => exact h

/-- Up to `2 ^ 53` the datum of an integer is the integer itself. -/
theorem asF64_exact (n : Number) (i : ℤ) (hi : n.asInteger = some i)
    (hb : i.natAbs ≤ 2^53) : n.asF64.toRat = i := by
  cases n with
  | posInt n h =>
    cases hi
    exact ofInt_toRat binary64 _ hb (by decide)
  | negInt j h =>
    cases hi
    exact ofInt_toRat binary64 _ hb (by decide)
  | float x h => cases hi

end Number

namespace Value

inductive Canonical : Value → Prop where
  | null : Canonical .null
  | bool (b : Bool) : Canonical (.bool b)
  | number (n : Number) : Canonical (.number n)
  | string (s : String) : Canonical (.string s)
  | array (xs : List Value) (h : ∀ x ∈ xs, Canonical x) : Canonical (.array xs)
  | object (m : List (String × Value)) (hm : SortedAssoc.Sorted m)
      (h : ∀ p ∈ m, Canonical p.2) : Canonical (.object m)

/-- `Value::get` with a key. -/
def get : Value → String → Option Value
  | .object m, key => m.lookup key
  | _, _ => none

def asStr : Value → Option String
  | .string s => some s
  | _ => none

def asObject : Value → Option Members
  | .object m => some m
  | _ => none

def asBool : Value → Option Bool
  | .bool b => some b
  | _ => none

def asI64 : Value → Option I64
  | .number n => n.asI64
  | _ => none

def asU64 : Value → Option U64
  | .number n => n.asU64
  | _ => none

def asF64 : Value → Option F64
  | .number n => some n.asF64
  | _ => none

def ofI64 (i : I64) : Value := .number (.ofI64 i)

def ofU64 (n : U64) : Value := .number (.ofU64 n)

/-- A datum that is not finite has no JSON number and is written as null. -/
def ofF64 (x : F64) : Value :=
  if h : x.isFinite = true then .number (.float x h) else .null

/-- An object literal: the last of repeated keys stays. -/
def ofMembers (entries : Members) : Value := .object (SortedAssoc.insertAll entries [])

theorem get_ofMembers (entries : Members) (k : String) :
    (ofMembers entries).get k = entries.reverse.lookup k := by
  change (SortedAssoc.insertAll entries []).lookup k = _
  rw [SortedAssoc.lookup_insertAll]
  simp

theorem ofF64_finite (x : F64) (h : x.isFinite = true) : ofF64 x = .number (.float x h) :=
  dif_pos h

theorem Canonical.items {xs : List Value} (h : Canonical (.array xs)) :
    ∀ x ∈ xs, Canonical x := by
  cases h with
  | array _ h => exact h

theorem Canonical.sorted {m : Members} (h : Canonical (.object m)) : SortedAssoc.Sorted m := by
  cases h with
  | object _ hm _ => exact hm

theorem Canonical.member {m : Members} (h : Canonical (.object m)) (k : String) (v : Value)
    (hv : m.lookup k = some v) : Canonical v := by
  cases h with
  | object _ _ h => exact h _ (SortedAssoc.mem_of_lookup m k v hv)

theorem canonical_ofMembers (entries : Members) (h : ∀ p ∈ entries, Canonical p.2) :
    Canonical (ofMembers entries) := by
  refine .object _ (SortedAssoc.sorted_insertAll _ _ List.Pairwise.nil) ?_
  intro p hp
  rcases SortedAssoc.mem_insertAll _ _ _ hp with hp | hp
  · exact h p hp
  · cases hp

mutual

/-- The value of a text's tree, whose objects may repeat keys in any order. -/
def collapse : Value → Value
  | .null => .null
  | .bool b => .bool b
  | .number n => .number n
  | .string s => .string s
  | .array xs => .array (collapseItems xs)
  | .object m => .ofMembers (collapseMembers m)

def collapseItems : List Value → List Value
  | [] => []
  | x::xs => collapse x::collapseItems xs

def collapseMembers : List (String × Value) → List (String × Value)
  | [] => []
  | (k,v)::m => (k,collapse v)::collapseMembers m

end

mutual

theorem collapse_canonical : ∀ v : Value, (collapse v).Canonical
  | .null => .null
  | .bool b => .bool b
  | .number n => .number n
  | .string s => .string s
  | .array xs => by
    rw [collapse]
    exact .array _ (collapseItems_canonical xs)
  | .object m => by
    rw [collapse]
    exact canonical_ofMembers _ (collapseMembers_canonical m)

theorem collapseItems_canonical : ∀ xs : List Value, ∀ x ∈ collapseItems xs, Canonical x
  | [] => by simp [collapseItems]
  | x::xs => by
    rw [collapseItems, List.forall_mem_cons]
    exact ⟨collapse_canonical x,collapseItems_canonical xs⟩

theorem collapseMembers_canonical : ∀ m : List (String × Value),
    ∀ p ∈ collapseMembers m, Canonical p.2
  | [] => by simp [collapseMembers]
  | (k,v)::m => by
    rw [collapseMembers, List.forall_mem_cons]
    exact ⟨collapse_canonical v,collapseMembers_canonical m⟩

end

theorem ofMembers_sorted (m : Members) (hm : SortedAssoc.Sorted m) : ofMembers m = .object m := by
  have hi : SortedAssoc.insertAll m [] = m := by
    apply SortedAssoc.sorted_ext _ _ (SortedAssoc.sorted_insertAll _ _ List.Pairwise.nil) hm
    intro x
    rw [SortedAssoc.lookup_insertAll, SortedAssoc.lookup_reverse m (SortedAssoc.nodup_keys m hm)]
    simp
  rw [ofMembers, hi]

mutual

/-- A canonical value has no repeated keys to collapse. -/
theorem collapse_of_canonical : ∀ v : Value, v.Canonical → collapse v = v
  | .null, _ => rfl
  | .bool _, _ => rfl
  | .number _, _ => rfl
  | .string _, _ => rfl
  | .array xs, h => by rw [collapse, collapseItems_of_canonical xs h.items]
  | .object m, .object _ hm h => by
    rw [collapse, collapseMembers_of_canonical m h, ofMembers_sorted m hm]

theorem collapseItems_of_canonical : ∀ xs : List Value, (∀ x ∈ xs, Canonical x) →
    collapseItems xs = xs
  | [], _ => rfl
  | x::xs, h => by
    rw [collapseItems, collapse_of_canonical x (h x (by simp)),
      collapseItems_of_canonical xs (fun y hy => h y (by simp [hy]))]

theorem collapseMembers_of_canonical : ∀ m : List (String × Value), (∀ p ∈ m, Canonical p.2) →
    collapseMembers m = m
  | [], _ => rfl
  | (k,v)::m, h => by
    rw [collapseMembers, collapse_of_canonical v (h (k,v) (by simp)),
      collapseMembers_of_canonical m (fun p hp => h p (by simp [hp]))]

end

end Value

/-- A value as a JSON parser returns it. -/
abbrev Json := {v : Value // v.Canonical}

end RlStatsApi.JsonValue
