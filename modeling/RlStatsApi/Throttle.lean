import Mathlib.Algebra.Order.Monoid.Defs
import Mathlib.Data.List.Basic

/-!
# Throttled offers

Items are offered one after the other, each at a time and with the time at
which taking it would end. A throttle takes an item when a gap has passed
since the last one it took. It leaves out no item later than the gap after
one it took, and no other choice that keeps the gap takes more.
-/

set_option autoImplicit false

namespace RlStatsApi.Throttle

structure Offer (α τ : Type*) where
  item : α
  made : τ
  ended : τ

section Order

variable {α τ : Type*} [LinearOrder τ]

/-- One offer is over before the next one is made. -/
structure InOrder (os : List (Offer α τ)) : Prop where
  each : ∀ o ∈ os, o.made ≤ o.ended
  next : os.Pairwise (fun a b => a.ended ≤ b.made)

variable {o : Offer α τ} {os : List (Offer α τ)}

theorem InOrder.nil : InOrder ([] : List (Offer α τ)) :=
  ⟨fun _ ho => absurd ho List.not_mem_nil,List.Pairwise.nil⟩

theorem InOrder.tail (h : InOrder (o::os)) : InOrder os :=
  ⟨fun a ha => h.each a (List.mem_cons_of_mem o ha),(List.pairwise_cons.mp h.next).2⟩

theorem InOrder.head_ended (h : InOrder (o::os)) : ∀ a ∈ os, o.ended ≤ a.made :=
  (List.pairwise_cons.mp h.next).1

theorem InOrder.cons (ho : o.made ≤ o.ended) (hn : ∀ a ∈ os, o.ended ≤ a.made) (h : InOrder os) :
    InOrder (o::os) :=
  ⟨List.forall_mem_cons.mpr ⟨ho,h.each⟩,List.Pairwise.cons hn h.next⟩

end Order

section Choice

variable {α τ : Type*} [AddCommMonoid τ] [LinearOrder τ] (gap : τ)

/-- The offers taken, where the last item before them ended at `last`. -/
def throttle : τ → List (Offer α τ) → List (Offer α τ)
  | _, [] => []
  | last, o::os => if last+gap ≤ o.made then o::throttle o.ended os else throttle last os

/-- From the end of one offer to the next there is at least the gap. -/
def Spaced (os : List (Offer α τ)) : Prop := os.Pairwise (fun a b => a.ended+gap ≤ b.made)

/-- The gap has not passed since an offer. -/
def Follows (k o : Offer α τ) : Prop := k.ended ≤ o.made ∧ o.made < k.ended+gap

variable {gap} {last : τ} {o : Offer α τ} {os : List (Offer α τ)}

theorem throttle_taken (h : last+gap ≤ o.made) :
    throttle gap last (o::os) = o::throttle gap o.ended os := if_pos h

theorem throttle_left (h : ¬ last+gap ≤ o.made) :
    throttle gap last (o::os) = throttle gap last os := if_neg h

theorem throttle_sublist (gap last : τ) (os : List (Offer α τ)) :
    (throttle gap last os).Sublist os := by
  induction os generalizing last with
  | nil => exact List.Sublist.refl _
  | cons o os ih =>
    by_cases h : last+gap ≤ o.made
    · rw [throttle_taken h]
      exact (ih o.ended).cons_cons o
    · rw [throttle_left h]
      exact (ih last).cons o

/-- An offer that is left out comes too early after one that is taken, or
after the beginning. -/
theorem throttle_covers (last : τ) (h : InOrder os) (a : Offer α τ) (ha : a ∈ os) :
    a ∈ throttle gap last os ∨ a.made < last+gap ∨ ∃ k ∈ throttle gap last os, Follows gap k a := by
  induction os generalizing last with
  | nil => exact absurd ha List.not_mem_nil
  | cons o os ih =>
    by_cases ho : last+gap ≤ o.made
    · rw [throttle_taken ho]
      rcases List.mem_cons.mp ha with rfl | ha
      · exact Or.inl List.mem_cons_self
      · rcases ih o.ended h.tail ha with hin | hlt | ⟨k,hk,hf⟩
        · exact Or.inl (List.mem_cons_of_mem o hin)
        · exact Or.inr (Or.inr ⟨o,List.mem_cons_self,h.head_ended a ha,hlt⟩)
        · exact Or.inr (Or.inr ⟨k,List.mem_cons_of_mem o hk,hf⟩)
    · rw [throttle_left ho]
      rcases List.mem_cons.mp ha with rfl | ha
      · exact Or.inr (Or.inl (not_le.mp ho))
      · exact ih last h.tail ha

variable [IsOrderedAddMonoid τ]

theorem throttle_after (hg : 0 ≤ gap) (h : InOrder os) :
    ∀ a ∈ throttle gap last os, last+gap ≤ a.made := by
  induction os generalizing last with
  | nil => exact fun a ha => absurd ha List.not_mem_nil
  | cons o os ih =>
    by_cases ho : last+gap ≤ o.made
    · rw [throttle_taken ho]
      intro a ha
      rcases List.mem_cons.mp ha with rfl | ha
      · exact ho
      · have hended : o.ended ≤ o.ended+gap := le_add_of_nonneg_right hg
        calc last+gap ≤ o.made := ho
          _ ≤ o.ended := h.each o List.mem_cons_self
          _ ≤ o.ended+gap := hended
          _ ≤ a.made := ih h.tail a ha
    · rw [throttle_left ho]
      exact ih h.tail

theorem throttle_spaced (hg : 0 ≤ gap) (h : InOrder os) : Spaced gap (throttle gap last os) := by
  induction os generalizing last with
  | nil => exact List.Pairwise.nil
  | cons o os ih =>
    by_cases ho : last+gap ≤ o.made
    · rw [throttle_taken ho]
      exact List.Pairwise.cons (throttle_after hg h.tail) (ih h.tail)
    · rw [throttle_left ho]
      exact ih h.tail

/-- The throttle takes as many offers as any choice with the gap can: the
choice may have begun later, which leaves it no more. -/
theorem throttle_most (h : InOrder os) (begun : τ) (hb : last ≤ begun)
    (other : List (Offer α τ)) (hs : other.Sublist os) (hg : Spaced gap other)
    (hfirst : ∀ a ∈ other, begun+gap ≤ a.made) :
    other.length ≤ (throttle gap last os).length := by
  induction os generalizing last begun other with
  | nil =>
    rw [List.sublist_nil.mp hs]
    exact Nat.le_refl _
  | cons o os ih =>
    by_cases ho : last+gap ≤ o.made
    · rw [throttle_taken ho, List.length_cons]
      cases other with
      | nil => exact Nat.zero_le _
      | cons a rest =>
        have hrest : Spaced gap rest := (List.pairwise_cons.mp hg).2
        have hafter : ∀ b ∈ rest, a.ended+gap ≤ b.made := (List.pairwise_cons.mp hg).1
        rw [List.length_cons]
        apply Nat.succ_le_succ
        cases hs with
        | cons _ hsub =>
          -- The choice begins with a later offer, which is over later still.
          have hm : a ∈ os := hsub.subset List.mem_cons_self
          have hlate : o.ended ≤ a.ended := (h.head_ended a hm).trans (h.tail.each a hm)
          exact ih h.tail a.ended hlate rest (List.sublist_of_cons_sublist hsub) hrest hafter
        | cons_cons _ hsub => exact ih h.tail o.ended le_rfl rest hsub hrest hafter
    · rw [throttle_left ho]
      have hnot : ¬ begun+gap ≤ o.made := fun hle =>
        ho ((add_le_add_left hb gap).trans hle)
      cases hs with
      | cons _ hsub => exact ih h.tail begun hb other hsub hg hfirst
      | cons_cons _ hsub => exact absurd (hfirst o List.mem_cons_self) hnot

end Choice

end RlStatsApi.Throttle
