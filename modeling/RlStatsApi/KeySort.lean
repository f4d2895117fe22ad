import Mathlib.Data.List.Sort

/-!
# Sorting by a key

The sort is stable: items of one key stay in the order in which they came.
What is read off the sorted items depends on the order of the input only
where items of one key differ in it.
-/

set_option autoImplicit false

namespace RlStatsApi.KeySort

variable {α β κ : Type*} [LinearOrder κ] (key : α → κ)

def sortByKey (xs : List α) : List α := xs.mergeSort (fun a b => decide (key a ≤ key b))

theorem sortByKey_perm (xs : List α) : (sortByKey key xs).Perm xs := List.mergeSort_perm xs _

theorem leKey_trans (a b c : α) (hab : decide (key a ≤ key b) = true)
    (hbc : decide (key b ≤ key c) = true) : decide (key a ≤ key c) = true :=
  decide_eq_true ((of_decide_eq_true hab).trans (of_decide_eq_true hbc))

theorem leKey_total (a b : α) : (decide (key a ≤ key b) || decide (key b ≤ key a)) = true := by
  rw [Bool.or_eq_true, decide_eq_true_iff, decide_eq_true_iff]
  exact le_total (key a) (key b)

theorem sortByKey_sorted (xs : List α) :
    (sortByKey key xs).Pairwise (fun a b => key a ≤ key b) :=
  (List.pairwise_mergeSort (leKey_trans key) (leKey_total key) xs).imp of_decide_eq_true

/-- The items of one key, in the order of the input. -/
theorem sortByKey_stable (xs : List α) (k : κ) :
    (sortByKey key xs).filter (fun a => decide (key a = k)) =
      xs.filter (fun a => decide (key a = k)) := by
  have hk : ∀ a ∈ xs.filter (fun a => decide (key a = k)), key a = k := fun a ha =>
    of_decide_eq_true (List.mem_filter.mp ha).2
  have hpair : (xs.filter (fun a => decide (key a = k))).Pairwise
      (fun a b => decide (key a ≤ key b) = true) :=
    List.pairwise_of_forall_mem_list fun a ha b hb =>
      decide_eq_true (le_of_eq ((hk a ha).trans (hk b hb).symm))
  have hsub : (xs.filter (fun a => decide (key a = k))).Sublist (sortByKey key xs) :=
    List.sublist_mergeSort (leKey_trans key) (leKey_total key) hpair List.filter_sublist
  have hin := hsub.filter (fun a => decide (key a = k))
  rw [List.filter_filter] at hin
  simp only [Bool.and_self] at hin
  exact (hin.eq_of_length ((sortByKey_perm key xs).filter _).length_eq.symm).symm

/-- Items of one key that look alike may come in any order. -/
theorem sortByKey_map (look : α → β) (xs ys : List α) (h : xs.Perm ys)
    (ht : ∀ a ∈ xs, ∀ b ∈ xs, key a = key b → look a = look b) :
    (sortByKey key xs).map look = (sortByKey key ys).map look := by
  have hx := sortByKey_perm key xs
  have hy := sortByKey_perm key ys
  have hmap : (sortByKey key xs).map (fun a => (key a,look a)) =
      (sortByKey key ys).map (fun a => (key a,look a)) := by
    have hxs : ((sortByKey key xs).map (fun a => (key a,look a))).Pairwise (·.1 ≤ ·.1) :=
      List.pairwise_map.mpr (sortByKey_sorted key xs)
    have hys : ((sortByKey key ys).map (fun a => (key a,look a))).Pairwise (·.1 ≤ ·.1) :=
      List.pairwise_map.mpr (sortByKey_sorted key ys)
    refine List.Perm.eq_of_pairwise (fun p q hp hq hpq hqp => ?_) hxs hys
      (((hx.trans h).trans hy.symm).map _)
    obtain ⟨a,ha,rfl⟩ := List.mem_map.mp hp
    obtain ⟨b,hb,rfl⟩ := List.mem_map.mp hq
    have hk : key a = key b := le_antisymm hpq hqp
    have hl := ht a (hx.subset ha) b (h.symm.subset (hy.subset hb)) hk
    rw [hk, hl]
  have hsnd := congrArg (List.map Prod.snd) hmap
  rwa [List.map_map, List.map_map] at hsnd

/-- Sorted items are those below a key, those of the key and those above it. -/
theorem sorted_split (ps : List α) (k : κ) (h : ps.Pairwise (fun a b => key a ≤ key b)) :
    ps = ps.filter (fun a => decide (key a < k))++
      (ps.filter (fun a => decide (key a = k))++ps.filter (fun a => decide (k < key a))) := by
  induction ps with
  | nil => rfl
  | cons p ps ih =>
    obtain ⟨hp,hps⟩ := List.pairwise_cons.mp h
    have hrec := ih hps
    rcases lt_trichotomy (key p) k with hlt | heq | hgt
    · simp only [List.filter_cons, hlt, hlt.ne, hlt.not_gt, decide_true, decide_false, if_true,
        Bool.false_eq_true, if_false, List.cons_append]
      rw [← hrec]
    · have hbelow : ps.filter (fun a => decide (key a < k)) = [] :=
        List.filter_eq_nil_iff.mpr fun a ha => by
          simpa using heq ▸ hp a ha
      rw [hbelow, List.nil_append] at hrec
      simp only [List.filter_cons, heq, lt_irrefl, decide_true, decide_false, if_true,
        Bool.false_eq_true, if_false, hbelow, List.nil_append, List.cons_append]
      rw [← hrec]
    · have hbelow : ps.filter (fun a => decide (key a < k)) = [] :=
        List.filter_eq_nil_iff.mpr fun a ha => by
          simpa using (hgt.trans_le (hp a ha)).le
      have hequal : ps.filter (fun a => decide (key a = k)) = [] :=
        List.filter_eq_nil_iff.mpr fun a ha => by
          simpa using (hgt.trans_le (hp a ha)).ne'
      rw [hbelow, hequal, List.nil_append, List.nil_append] at hrec
      simp only [List.filter_cons, hgt, hgt.ne', hgt.not_gt, decide_true, decide_false, if_true,
        Bool.false_eq_true, if_false, hbelow, hequal, List.nil_append]
      rw [← hrec]

/-- The items below the key of the first one come before it and look as if
they were alone. -/
theorem sortByKey_first (look : α → β) (a : α) (rest : List α) :
    ∃ below after : List β, (sortByKey key (a::rest)).map look = below++look a::after ∧
      below.length = (rest.filter (fun x => decide (key x < key a))).length := by
  have hperm := sortByKey_perm key (a::rest)
  have hsplit := sorted_split key _ (key a) (sortByKey_sorted key (a::rest))
  rw [sortByKey_stable, List.filter_cons_of_pos (by simp)] at hsplit
  refine ⟨((sortByKey key (a::rest)).filter (fun x => decide (key x < key a))).map look,
    (rest.filter (fun x => decide (key x = key a))++
      (sortByKey key (a::rest)).filter (fun x => decide (key a < key x))).map look,?_,?_⟩
  · conv_lhs => rw [hsplit]
    rw [List.map_append, List.cons_append, List.map_cons]
  · rw [List.length_map, (hperm.filter _).length_eq, List.filter_cons_of_neg (by simp)]

/-- The order of the input never shows if and only if items of one key look alike. -/
theorem sortByKey_order_iff (look : α → β) (xs : List α) :
    (∀ ys : List α, ys.Perm xs → (sortByKey key ys).map look = (sortByKey key xs).map look) ↔
      ∀ a ∈ xs, ∀ b ∈ xs, key a = key b → look a = look b := by
  constructor
  · intro h a ha b hb hk
    by_contra hne
    obtain ⟨s,t,rfl⟩ := List.append_of_mem ha
    have hb' : b ∈ s++t := by
      rcases List.mem_append.mp hb with hs | ht
      · exact List.mem_append_left t hs
      · rcases List.mem_cons.mp ht with rfl | ht
        · exact absurd rfl hne
        · exact List.mem_append_right s ht
    obtain ⟨u,v,huv⟩ := List.append_of_mem hb'
    have hab : (a::b::(u++v)).Perm (s++a::t) := by
      have hmid : (b::(u++v)).Perm (s++t) := huv ▸ List.perm_middle.symm
      exact (hmid.cons a).trans List.perm_middle.symm
    have hba : (b::a::(u++v)).Perm (s++a::t) := (List.Perm.swap a b _).trans hab
    obtain ⟨l₁,r₁,he₁,hl₁⟩ := sortByKey_first key look a (b::(u++v))
    obtain ⟨l₂,r₂,he₂,hl₂⟩ := sortByKey_first key look b (a::(u++v))
    have hsame : l₁++look a::r₁ = l₂++look b::r₂ := by
      rw [← he₁, ← he₂, h _ hab, h _ hba]
    have hlen : l₁.length = l₂.length := by
      rw [hl₁, hl₂, hk, List.filter_cons_of_neg (by simp), List.filter_cons_of_neg (by simp [hk])]
    exact hne (List.cons.inj (List.append_inj hsame hlen).2).1
  · intro h ys hys
    exact (sortByKey_map key look xs ys hys.symm h).symm

end RlStatsApi.KeySort
