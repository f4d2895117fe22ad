import Mathlib.Data.String.Basic
import Mathlib.Data.List.Nodup
import Mathlib.Tactic.SplitIfs

/-!
# Sorted association lists

A finite map is a list of key and value pairs. Insertion keeps the keys in
order and replaces an entry of the same key, so that a list built by
insertions from the empty one is strictly sorted, and two sorted lists with
the same lookups are equal. The lookup laws themselves need no sortedness.
-/

set_option autoImplicit false

namespace RlStatsApi.SortedAssoc

variable {κ α : Type*} [LinearOrder κ]

def Sorted (m : List (κ × α)) : Prop := m.Pairwise (fun a b => a.1 < b.1)

def insert (k : κ) (v : α) : List (κ × α) → List (κ × α)
  | [] => [(k,v)]
  | (k',v')::m =>
    if k < k' then (k,v)::(k',v')::m
    else if k = k' then (k,v)::m
    else (k',v')::insert k v m

/-- Insert one entry after the other: the last of repeated keys stays. -/
def insertAll (entries m : List (κ × α)) : List (κ × α) :=
  entries.foldl (fun acc p => insert p.1 p.2 acc) m

/-- The entries whose key is not in a given list. -/
def without (keys : List κ) (m : List (κ × α)) : List (κ × α) :=
  m.filter (fun p => p.1 ∉ keys)

theorem lookup_entry (p : κ × α) (x : κ) (m : List (κ × α)) :
    List.lookup x (p::m) = if x = p.1 then some p.2 else m.lookup x := by
  obtain ⟨k,v⟩ := p
  by_cases h : x = k
  · simp [h]
  · simp [List.lookup_cons, beq_eq_false_iff_ne.mpr h, h]

theorem lookup_insert (k x : κ) (v : α) (m : List (κ × α)) :
    (insert k v m).lookup x = if x = k then some v else m.lookup x := by
  induction m with
  | nil => simp [insert, lookup_entry]
  | cons p m ih =>
    obtain ⟨k',v'⟩ := p
    rw [insert]
    by_cases h1 : k < k'
    · simp [h1, lookup_entry]
    by_cases h2 : k = k'
    · subst h2
      simp only [lt_self_iff_false, if_false, if_true, lookup_entry]
      split_ifs <;> rfl
    · simp only [h1, h2, if_false, lookup_entry, ih]
      by_cases hx : x = k
      · simp [hx, h2]
      · simp [hx]

theorem lookup_insertAll (entries m : List (κ × α)) (x : κ) :
    (insertAll entries m).lookup x = (entries.reverse.lookup x).or (m.lookup x) := by
  induction entries generalizing m with
  | nil => simp [insertAll]
  | cons p entries ih =>
    have hstep : insertAll (p::entries) m = insertAll entries (insert p.1 p.2 m) := rfl
    rw [hstep, ih, lookup_insert, List.reverse_cons, List.lookup_append]
    by_cases hx : x = p.1
    · cases hl : entries.reverse.lookup p.1 <;> simp [hx, lookup_entry, hl]
    · simp [hx, lookup_entry]

theorem mem_of_lookup (m : List (κ × α)) (x : κ) (v : α) (h : m.lookup x = some v) :
    (x,v) ∈ m := by
  induction m with
  | nil => simp at h
  | cons p m ih =>
    rw [lookup_entry] at h
    split_ifs at h with hx
    · simp [hx, ← Option.some.inj h]
    · simp [ih h]

theorem lookup_none_of_not_key (m : List (κ × α)) (x : κ) (h : x ∉ m.map Prod.fst) :
    m.lookup x = none := by
  induction m with
  | nil => rfl
  | cons p m ih =>
    simp only [List.map_cons, List.mem_cons, not_or] at h
    rw [lookup_entry, if_neg h.1, ih h.2]

theorem lookup_ne_none (m : List (κ × α)) (p : κ × α) (hp : p ∈ m) : m.lookup p.1 ≠ none := by
  induction m with
  | nil => cases hp
  | cons q m ih =>
    rw [lookup_entry]
    split_ifs with he
    · simp
    · rcases List.mem_cons.mp hp with rfl | hp
      · exact absurd rfl he
      · exact ih hp

theorem key_of_lookup (m : List (κ × α)) (x : κ) (v : α) (h : m.lookup x = some v) :
    x ∈ m.map Prod.fst :=
  List.mem_map_of_mem (mem_of_lookup m x v h)

/-- A key that is given at most once is looked up from either end. -/
theorem lookup_reverse_of_count (m : List (κ × α)) (x : κ) (hx : (m.map Prod.fst).count x ≤ 1) :
    m.reverse.lookup x = m.lookup x := by
  induction m with
  | nil => rfl
  | cons p m ih =>
    rw [List.map_cons, List.count_cons] at hx
    rw [List.reverse_cons, List.lookup_append, ih (by omega), lookup_entry, lookup_entry]
    by_cases he : x = p.1
    · subst he
      have hz : p.1 ∉ m.map Prod.fst := by
        rw [← List.count_eq_zero]
        simpa using hx
      simp [lookup_none_of_not_key m p.1 hz]
    · simp [he]

/-- With pairwise different keys the order of the entries does not matter. -/
theorem lookup_reverse (m : List (κ × α)) (hm : (m.map Prod.fst).Nodup) (x : κ) :
    m.reverse.lookup x = m.lookup x :=
  lookup_reverse_of_count m x (List.nodup_iff_count_le_one.mp hm x)

theorem mem_insert (k : κ) (v : α) (m : List (κ × α)) (p : κ × α)
    (h : p ∈ insert k v m) : p = (k,v) ∨ p ∈ m := by
  induction m with
  | nil => simpa [insert] using h
  | cons q m ih =>
    obtain ⟨k',v'⟩ := q
    rw [insert] at h
    split_ifs at h <;> grind

theorem sorted_insert (k : κ) (v : α) (m : List (κ × α)) (hm : Sorted m) :
    Sorted (insert k v m) := by
  induction m with
  | nil => simp [insert, Sorted]
  | cons q m ih =>
    obtain ⟨k',v'⟩ := q
    obtain ⟨hq,ht⟩ := List.pairwise_cons.mp hm
    rw [insert]
    split_ifs with h1 h2
    · refine List.pairwise_cons.mpr ⟨?_,hm⟩
      intro p hp
      rcases List.mem_cons.mp hp with rfl | hp
      · exact h1
      · exact h1.trans (hq p hp)
    · subst h2
      exact List.pairwise_cons.mpr ⟨hq,ht⟩
    · refine List.pairwise_cons.mpr ⟨?_,ih ht⟩
      intro p hp
      rcases mem_insert k v m p hp with rfl | hp
      · exact lt_of_le_of_ne (not_lt.mp h1) (Ne.symm h2)
      · exact hq p hp

theorem sorted_insertAll (entries m : List (κ × α)) (hm : Sorted m) :
    Sorted (insertAll entries m) := by
  induction entries generalizing m with
  | nil => exact hm
  | cons p entries ih => exact ih _ (sorted_insert p.1 p.2 m hm)

theorem mem_insertAll (entries m : List (κ × α)) (p : κ × α)
    (h : p ∈ insertAll entries m) : p ∈ entries ∨ p ∈ m := by
  induction entries generalizing m with
  | nil => exact Or.inr h
  | cons q entries ih =>
    rcases ih _ h with h | h
    · exact Or.inl (by simp [h])
    · rcases mem_insert q.1 q.2 m p h with rfl | h
      · exact Or.inl (by simp)
      · exact Or.inr h

theorem sorted_without (keys : List κ) (m : List (κ × α)) (hm : Sorted m) :
    Sorted (without keys m) := hm.filter _

theorem lookup_without (keys : List κ) (m : List (κ × α)) (x : κ) :
    (without keys m).lookup x = if x ∈ keys then none else m.lookup x := by
  induction m with
  | nil => simp [without]
  | cons p m ih =>
    have hf : without keys (p::m) =
        if p.1 ∈ keys then without keys m else p::without keys m := by
      by_cases hk : p.1 ∈ keys <;> simp [without, hk]
    rw [hf, lookup_entry]
    by_cases hk : p.1 ∈ keys
    · rw [if_pos hk, ih]
      by_cases hx : x = p.1 <;> simp [hx, hk]
    · rw [if_neg hk, lookup_entry, ih]
      by_cases hx : x = p.1 <;> simp [hx, hk]

theorem nodup_keys (m : List (κ × α)) (hm : Sorted m) : (m.map Prod.fst).Nodup := by
  rw [List.Nodup, List.pairwise_map]
  exact hm.imp (fun h => ne_of_lt h)

theorem lookup_of_mem (m : List (κ × α)) (hm : (m.map Prod.fst).Nodup) (p : κ × α)
    (hp : p ∈ m) : m.lookup p.1 = some p.2 := by
  induction m with
  | nil => simp at hp
  | cons q m ih =>
    rw [List.map_cons, List.nodup_cons] at hm
    rw [lookup_entry]
    rcases List.mem_cons.mp hp with rfl | hp
    · simp
    · have hne : p.1 ≠ q.1 := fun h => hm.1 (h ▸ List.mem_map_of_mem hp)
      rw [if_neg hne, ih hm.2 hp]

theorem lookup_perm (m n : List (κ × α)) (h : m.Perm n) (hm : (m.map Prod.fst).Nodup) (x : κ) :
    m.lookup x = n.lookup x := by
  have hn : (n.map Prod.fst).Nodup := (h.map Prod.fst).nodup hm
  cases hl : m.lookup x with
  | some v =>
    have hv : (x,v) ∈ n := h.subset (mem_of_lookup m x v hl)
    exact (lookup_of_mem n hn (x,v) hv).symm
  | none =>
    cases hr : n.lookup x with
    | none => rfl
    | some v =>
      have hv : (x,v) ∈ m := h.symm.subset (mem_of_lookup n x v hr)
      rw [lookup_of_mem m hm (x,v) hv] at hl
      cases hl

/-- The entry that is found from the end has no later one of its key. -/
theorem lookup_reverse_split (m : List (κ × α)) (x : κ) (v : α)
    (h : m.reverse.lookup x = some v) :
    ∃ before after, m = before++(x,v)::after ∧ x ∉ after.map Prod.fst := by
  induction m with
  | nil => cases h
  | cons p m ih =>
    rw [List.reverse_cons, List.lookup_append] at h
    cases hr : m.reverse.lookup x with
    | some w =>
      rw [hr] at h
      cases h
      obtain ⟨before,after,rfl,hx⟩ := ih hr
      exact ⟨p::before,after,rfl,hx⟩
    | none =>
      rw [hr, Option.none_or, lookup_entry] at h
      split_ifs at h with he
      · cases h
        refine ⟨[],m,by simp [he],?_⟩
        intro hk
        obtain ⟨q,hq,rfl⟩ := List.mem_map.mp hk
        have hmem : q ∈ m.reverse := by simpa using hq
        exact absurd hr (lookup_ne_none m.reverse q hmem)
      · cases h

theorem mem_keys_insert (k x : κ) (v : α) (m : List (κ × α)) :
    x ∈ (insert k v m).map Prod.fst ↔ x = k ∨ x ∈ m.map Prod.fst := by
  induction m with
  | nil => simp [insert]
  | cons q m ih =>
    rw [insert]
    split_ifs with h1 h2
    · simp
    · subst h2
      simp
    · simp only [List.map_cons, List.mem_cons, ih]
      tauto

theorem mem_keys_insertAll (entries m : List (κ × α)) (x : κ) :
    x ∈ (insertAll entries m).map Prod.fst ↔
      x ∈ entries.map Prod.fst ∨ x ∈ m.map Prod.fst := by
  induction entries generalizing m with
  | nil => simp [insertAll]
  | cons p entries ih =>
    have hstep : insertAll (p::entries) m = insertAll entries (insert p.1 p.2 m) := rfl
    rw [hstep, ih, mem_keys_insert, List.map_cons, List.mem_cons]
    tauto

theorem length_insert (k : κ) (v : α) (m : List (κ × α)) (h : k ∉ m.map Prod.fst) :
    (insert k v m).length = m.length+1 := by
  induction m with
  | nil => rfl
  | cons q m ih =>
    simp only [List.map_cons, List.mem_cons, not_or] at h
    rw [insert]
    split_ifs with h1
    · rfl
    · exact absurd ‹k = q.1› h.1
    · simp [ih h.2]

/-- Entries with pairwise different new keys are all kept. -/
theorem length_insertAll (entries m : List (κ × α)) (he : (entries.map Prod.fst).Nodup)
    (hm : ∀ p ∈ entries, p.1 ∉ m.map Prod.fst) :
    (insertAll entries m).length = entries.length+m.length := by
  induction entries generalizing m with
  | nil => simp [insertAll]
  | cons p entries ih =>
    rw [List.map_cons, List.nodup_cons] at he
    have hstep : insertAll (p::entries) m = insertAll entries (insert p.1 p.2 m) := rfl
    rw [hstep, ih _ he.2, length_insert _ _ _ (hm p (by simp)), List.length_cons]
    · omega
    · intro q hq hk
      rcases (mem_keys_insert _ _ _ _).mp hk with hpq | hk
      · exact he.1 (hpq ▸ List.mem_map_of_mem hq)
      · exact hm q (by simp [hq]) hk

/-- Sorted lists are canonical: the same lookups mean the same list. -/
theorem sorted_ext (m n : List (κ × α)) (hm : Sorted m) (hn : Sorted n)
    (h : ∀ x, m.lookup x = n.lookup x) : m = n := by
  induction m generalizing n with
  | nil =>
    cases n with
    | nil => rfl
    | cons q n => simpa [lookup_entry] using h q.1
  | cons p m ih =>
    obtain ⟨hp,hmt⟩ := List.pairwise_cons.mp hm
    cases n with
    | nil => simpa [lookup_entry] using h p.1
    | cons q n =>
      obtain ⟨hq,hnt⟩ := List.pairwise_cons.mp hn
      have hpq : p = q := by
        have h1 : p ∈ q::n := mem_of_lookup _ p.1 p.2 ((h p.1).symm.trans (by simp [lookup_entry]))
        have h2 : q ∈ p::m := mem_of_lookup _ q.1 q.2 ((h q.1).trans (by simp [lookup_entry]))
        rcases List.mem_cons.mp h1 with h1 | h1
        · exact h1
        · rcases List.mem_cons.mp h2 with h2 | h2
          · exact h2.symm
          · exact absurd (hq _ h1) (not_lt.mpr (hp _ h2).le)
      subst hpq
      congr 1
      apply ih n hmt hnt
      intro x
      have hx := h x
      by_cases hxp : x = p.1
      · subst hxp
        rw [lookup_none_of_not_key m, lookup_none_of_not_key n]
        · intro hc
          obtain ⟨r,hr,he⟩ := List.mem_map.mp hc
          exact (hq r hr).ne he.symm
        · intro hc
          obtain ⟨r,hr,he⟩ := List.mem_map.mp hc
          exact (hp r hr).ne he.symm
      · simpa [lookup_entry, hxp] using hx

theorem insertAll_perm (entries entries' : List (κ × α)) (h : entries.Perm entries')
    (he : (entries.map Prod.fst).Nodup) : insertAll entries [] = insertAll entries' [] := by
  have hs : ∀ e : List (κ × α), Sorted (insertAll e []) :=
    fun e => sorted_insertAll e [] List.Pairwise.nil
  apply sorted_ext _ _ (hs _) (hs _)
  intro x
  have he' : (entries'.map Prod.fst).Nodup := (h.map Prod.fst).nodup he
  rw [lookup_insertAll, lookup_insertAll, lookup_reverse _ he, lookup_reverse _ he',
    lookup_perm _ _ h he]

end RlStatsApi.SortedAssoc
