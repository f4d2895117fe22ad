import Mathlib.Data.List.Basic
import Mathlib.Tactic.Common

/-!
# Assignments under headers

A configuration is a list of headers and assignments. Keys are compared up
to a normal form. An upsert rewrites every assignment of its key, or adds
one at the end. Read without sections it sets its key and keeps the others.
Read section by section it sets its key in every section that assigned it,
or in the last one, and keeps the others everywhere.
-/

set_option autoImplicit false

namespace RlStatsApi.KeyedItems

inductive Item (σ κ ν : Type) where
  | header (s : σ)
  | assign (k : κ) (v : ν)

variable {σ κ ν ι : Type} [DecidableEq ι] (norm : κ → ι)

/-- The first assignment of a key. -/
def value (k : κ) : List (Item σ κ ν) → Option ν
  | [] => none
  | .header _::items => value k items
  | .assign k' v::items => if norm k' = norm k then some v else value k items

def assigns (k : κ) : List (Item σ κ ν) → Bool
  | [] => false
  | .header _::items => assigns k items
  | .assign k' _::items => decide (norm k' = norm k) || assigns k items

def rewrite (k : κ) (v : ν) : List (Item σ κ ν) → List (Item σ κ ν)
  | [] => []
  | .header s::items => .header s::rewrite k v items
  | .assign k' v'::items =>
    (if norm k' = norm k then .assign k v else .assign k' v')::rewrite k v items

def upsert (k : κ) (v : ν) (items : List (Item σ κ ν)) : List (Item σ κ ν) :=
  if assigns norm k items = true then rewrite norm k v items else items++[.assign k v]

theorem assigns_append (k : κ) (items rest : List (Item σ κ ν)) :
    assigns norm k (items++rest) = (assigns norm k items || assigns norm k rest) := by
  induction items with
  | nil => rfl
  | cons item items ih =>
    cases item with
    | header s => exact ih
    | assign k' v => simp [assigns, ih, Bool.or_assoc]

theorem rewrite_append (k : κ) (v : ν) (items rest : List (Item σ κ ν)) :
    rewrite norm k v (items++rest) = rewrite norm k v items++rewrite norm k v rest := by
  induction items with
  | nil => rfl
  | cons item items ih => cases item <;> simp [rewrite, ih]

theorem rewrite_none (k : κ) (v : ν) (items : List (Item σ κ ν))
    (h : assigns norm k items = false) : rewrite norm k v items = items := by
  induction items with
  | nil => rfl
  | cons item items ih =>
    cases item with
    | header s => rw [rewrite, ih h]
    | assign k' v' =>
      simp only [assigns, Bool.or_eq_false_iff, decide_eq_false_iff_not] at h
      rw [rewrite, if_neg h.1, ih h.2]

/-! ## Reading without sections -/

theorem value_append (k : κ) (items rest : List (Item σ κ ν)) :
    value norm k (items++rest) = (value norm k items).or (value norm k rest) := by
  induction items with
  | nil => rfl
  | cons item items ih =>
    cases item with
    | header s => exact ih
    | assign k' v =>
      by_cases h : norm k' = norm k <;> simp [value, h, ih]

theorem value_none (k : κ) (items : List (Item σ κ ν)) (h : assigns norm k items = false) :
    value norm k items = none := by
  induction items with
  | nil => rfl
  | cons item items ih =>
    cases item with
    | header s => exact ih h
    | assign k' v =>
      simp only [assigns, Bool.or_eq_false_iff, decide_eq_false_iff_not] at h
      simp [value, h.1, ih h.2]

theorem value_rewrite (k : κ) (v : ν) (items : List (Item σ κ ν))
    (h : assigns norm k items = true) : value norm k (rewrite norm k v items) = some v := by
  induction items with
  | nil => simp [assigns] at h
  | cons item items ih =>
    cases item with
    | header s => exact ih h
    | assign k' v' =>
      by_cases hk : norm k' = norm k
      · simp [rewrite, value, hk]
      · simp only [assigns, hk, decide_false, Bool.false_or] at h
        simp [rewrite, value, hk, ih h]

theorem value_rewrite_other (k k' : κ) (v : ν) (items : List (Item σ κ ν))
    (hk : norm k' ≠ norm k) : value norm k' (rewrite norm k v items) = value norm k' items := by
  induction items with
  | nil => rfl
  | cons item items ih =>
    cases item with
    | header s => exact ih
    | assign k2 v2 =>
      by_cases h : norm k2 = norm k
      · simp [rewrite, value, h, hk.symm, ih]
      · simp [rewrite, value, h, ih]

theorem value_upsert (k : κ) (v : ν) (items : List (Item σ κ ν)) :
    value norm k (upsert norm k v items) = some v := by
  unfold upsert
  split_ifs with h
  · exact value_rewrite norm k v items h
  · rw [value_append, value_none norm k items (by simpa using h)]
    simp [value]

theorem value_upsert_other (k k' : κ) (v : ν) (items : List (Item σ κ ν))
    (hk : norm k' ≠ norm k) : value norm k' (upsert norm k v items) = value norm k' items := by
  unfold upsert
  split_ifs
  · exact value_rewrite_other norm k k' v items hk
  · rw [value_append]
    simp [value, hk.symm]

theorem assigns_rewrite (k k' : κ) (v : ν) (items : List (Item σ κ ν)) :
    assigns norm k' (rewrite norm k v items) = assigns norm k' items := by
  induction items with
  | nil => rfl
  | cons item items ih =>
    cases item with
    | header s => exact ih
    | assign k2 v2 => by_cases h : norm k2 = norm k <;> simp [rewrite, assigns, h, ih]

theorem assigns_upsert_other (k k' : κ) (v : ν) (items : List (Item σ κ ν))
    (hk : norm k' ≠ norm k) :
    assigns norm k' (upsert norm k v items) = assigns norm k' items := by
  unfold upsert
  split_ifs
  · exact assigns_rewrite norm k k' v items
  · rw [assigns_append]
    simp [assigns, hk.symm]

/-! ## Reading section by section -/

/-- The section in which the items end. -/
def current (c : Option σ) : List (Item σ κ ν) → Option σ
  | [] => c
  | .header s::items => current (some s) items
  | .assign _ _::items => current c items

theorem current_append (c : Option σ) (items rest : List (Item σ κ ν)) :
    current c (items++rest) = current (current c items) rest := by
  induction items generalizing c with
  | nil => rfl
  | cons item items ih => cases item <;> exact ih _

theorem current_rewrite (k : κ) (v : ν) (c : Option σ) (items : List (Item σ κ ν)) :
    current c (rewrite norm k v items) = current c items := by
  induction items generalizing c with
  | nil => rfl
  | cons item items ih =>
    cases item with
    | header s => exact ih _
    | assign k' v' => by_cases h : norm k' = norm k <;> simpa [rewrite, current, h] using ih c

theorem current_upsert (k : κ) (v : ν) (c : Option σ) (items : List (Item σ κ ν)) :
    current c (upsert norm k v items) = current c items := by
  unfold upsert
  split_ifs
  · exact current_rewrite norm k v c items
  · rw [current_append, current]
    rfl

variable [DecidableEq σ]

/-- The first assignment of a key in a section; `c` is the section in which
the items begin, and none the part before all headers. -/
def valueIn (g : Option σ) (k : κ) : Option σ → List (Item σ κ ν) → Option ν
  | _, [] => none
  | _, .header s::items => valueIn g k (some s) items
  | c, .assign k' v::items =>
    if c = g ∧ norm k' = norm k then some v else valueIn g k c items

/-- The sections an upsert of the key writes to: those that assign it, or
the last one when none does. -/
def Receives (g : Option σ) (k : κ) (c : Option σ) (items : List (Item σ κ ν)) : Prop :=
  (valueIn norm g k c items).isSome = true ∨ (assigns norm k items = false ∧ current c items = g)

instance (g : Option σ) (k : κ) (c : Option σ) (items : List (Item σ κ ν)) :
    Decidable (Receives norm g k c items) := inferInstanceAs (Decidable (_ ∨ _))

theorem valueIn_append (g : Option σ) (k : κ) (c : Option σ) (items rest : List (Item σ κ ν)) :
    valueIn norm g k c (items++rest) =
      (valueIn norm g k c items).or (valueIn norm g k (current c items) rest) := by
  induction items generalizing c with
  | nil => rfl
  | cons item items ih =>
    cases item with
    | header s => exact ih _
    | assign k' v =>
      by_cases h : c = g ∧ norm k' = norm k <;> simp [valueIn, h, ih, current]

theorem valueIn_none (g : Option σ) (k : κ) (c : Option σ) (items : List (Item σ κ ν))
    (h : assigns norm k items = false) : valueIn norm g k c items = none := by
  induction items generalizing c with
  | nil => rfl
  | cons item items ih =>
    cases item with
    | header s => exact ih _ h
    | assign k' v =>
      simp only [assigns, Bool.or_eq_false_iff, decide_eq_false_iff_not] at h
      simp [valueIn, h.1, ih _ h.2]

theorem valueIn_rewrite (g : Option σ) (k : κ) (v : ν) (c : Option σ)
    (items : List (Item σ κ ν)) :
    valueIn norm g k c (rewrite norm k v items) =
      (valueIn norm g k c items).map (fun _ => v) := by
  induction items generalizing c with
  | nil => rfl
  | cons item items ih =>
    cases item with
    | header s => exact ih _
    | assign k' v' =>
      by_cases hk : norm k' = norm k
      · by_cases hc : c = g <;> simp [rewrite, valueIn, hk, hc, ih]
      · simp [rewrite, valueIn, hk, ih]

theorem valueIn_rewrite_other (g : Option σ) (k k' : κ) (v : ν) (c : Option σ)
    (items : List (Item σ κ ν)) (hk : norm k' ≠ norm k) :
    valueIn norm g k' c (rewrite norm k v items) = valueIn norm g k' c items := by
  induction items generalizing c with
  | nil => rfl
  | cons item items ih =>
    cases item with
    | header s => exact ih _
    | assign k2 v2 =>
      by_cases h : norm k2 = norm k
      · simp [rewrite, valueIn, h, hk.symm, ih]
      · simp [rewrite, valueIn, h, ih]

theorem valueIn_upsert_receives (g : Option σ) (k : κ) (v : ν) (c : Option σ)
    (items : List (Item σ κ ν)) (h : Receives norm g k c items) :
    valueIn norm g k c (upsert norm k v items) = some v := by
  unfold upsert
  split_ifs with ha
  · obtain ⟨w,hw⟩ := Option.isSome_iff_exists.mp (h.resolve_right (by simp [ha]))
    rw [valueIn_rewrite, hw]
    rfl
  · have hn := valueIn_none norm g k c items (by simpa using ha)
    rw [valueIn_append, hn, (h.resolve_left (by simp [hn])).2]
    simp [valueIn]

theorem valueIn_upsert_none (g : Option σ) (k : κ) (v : ν) (c : Option σ)
    (items : List (Item σ κ ν)) (h : ¬ Receives norm g k c items) :
    valueIn norm g k c (upsert norm k v items) = none := by
  simp only [Receives, not_or, Bool.not_eq_true, Option.isSome_eq_false_iff,
    Option.isNone_iff_eq_none] at h
  unfold upsert
  split_ifs with ha
  · rw [valueIn_rewrite, h.1]
    rfl
  · have hc : current c items ≠ g := fun hc => h.2 ⟨by simpa using ha,hc⟩
    rw [valueIn_append, h.1]
    simp [valueIn, hc]

/-- After an upsert its key has the new value in the sections that receive
it, and none in the others. -/
theorem valueIn_upsert (g : Option σ) (k : κ) (v : ν) (c : Option σ) (items : List (Item σ κ ν)) :
    valueIn norm g k c (upsert norm k v items) =
      if Receives norm g k c items then some v else none := by
  split_ifs with h
  · exact valueIn_upsert_receives norm g k v c items h
  · exact valueIn_upsert_none norm g k v c items h

/-- An upsert changes no other key in any section. -/
theorem valueIn_upsert_other (g : Option σ) (k k' : κ) (v : ν) (c : Option σ)
    (items : List (Item σ κ ν)) (hk : norm k' ≠ norm k) :
    valueIn norm g k' c (upsert norm k v items) = valueIn norm g k' c items := by
  unfold upsert
  split_ifs
  · exact valueIn_rewrite_other norm g k k' v c items hk
  · rw [valueIn_append]
    simp [valueIn, hk.symm]

theorem valueIn_norm (g : Option σ) (k k' : κ) (c : Option σ) (items : List (Item σ κ ν))
    (hk : norm k' = norm k) : valueIn norm g k' c items = valueIn norm g k c items := by
  induction items generalizing c with
  | nil => rfl
  | cons item items ih =>
    cases item with
    | header s => exact ih _
    | assign k2 v2 => simp [valueIn, hk, ih]

theorem valueIn_unreceived (g : Option σ) (k : κ) (c : Option σ) (items : List (Item σ κ ν))
    (h : ¬ Receives norm g k c items) : valueIn norm g k c items = none := by
  simp only [Receives, not_or, Bool.not_eq_true, Option.isSome_eq_false_iff,
    Option.isNone_iff_eq_none] at h
  exact h.1

theorem receives_upsert_other (g : Option σ) (k k' : κ) (v : ν) (c : Option σ)
    (items : List (Item σ κ ν)) (hk : norm k' ≠ norm k) :
    Receives norm g k' c (upsert norm k v items) ↔ Receives norm g k' c items := by
  unfold Receives
  rw [valueIn_upsert_other norm g k k' v c items hk, assigns_upsert_other norm k k' v items hk,
    current_upsert]

end RlStatsApi.KeyedItems
