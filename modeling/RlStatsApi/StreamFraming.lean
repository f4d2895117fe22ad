import Mathlib.Data.List.Infix
import Mathlib.Data.List.Pairwise
import Mathlib.Tactic.Common

/-!
# Values in a stream of bytes

A deserializer looks at the bytes received so far and finds a value with its
length, the end of the bytes inside a value, or an error. A framed stream is
made of blank bytes, texts of values and a tail. Whatever part of a framed
stream has been received, the deserializer finds the next value of the
stream or waits for more.
-/

set_option autoImplicit false

namespace RlStatsApi.StreamFraming

abbrev Bytes := List UInt8

def isAsciiWhitespace (b : UInt8) : Bool :=
  b = 32 || b = 9 || b = 10 || b = 12 || b = 13

inductive Item (V : Type) where
  | value (v : V) (offset : ℕ)
  | eof
  | malformed
  | finished

structure Deserializer (V : Type) where
  next : Bytes → Item V
  offset : ∀ b v n, next b = .value v n → 0 < n ∧ n ≤ b.length

def strip (b : Bytes) : Bytes := b.dropWhile isAsciiWhitespace

/-- The first byte of a text is not blank. -/
def Starts (t : Bytes) : Prop := ∃ b s, t = b::s ∧ isAsciiWhitespace b = false

theorem strip_strip (b : Bytes) : strip (strip b) = strip b := by
  induction b with
  | nil => rfl
  | cons x b ih =>
    by_cases hx : isAsciiWhitespace x = true
    · simpa [strip, hx] using ih
    · simp [strip, hx]

theorem strip_starts (b : Bytes) (h : strip b ≠ []) : Starts (strip b) := by
  induction b with
  | nil => exact absurd rfl h
  | cons x b ih =>
    by_cases hx : isAsciiWhitespace x = true
    · have hs : strip (x::b) = strip b := by simp [strip, hx]
      rw [hs] at h ⊢
      exact ih h
    · have hx' : isAsciiWhitespace x = false := by simpa using hx
      exact ⟨x,b,by simp [strip, hx'],hx'⟩

section Streams

variable {V : Type} (D : Deserializer V)

/-- The text of one value: complete, it is read whatever follows; cut, it waits. -/
structure Framed (t : Bytes) (v : V) : Prop where
  starts : Starts t
  complete : ∀ rest, D.next (t++rest) = .value v t.length
  waits : ∀ p, p ≠ [] → p <+: t → p ≠ t → D.next p = .eof

/-- How a stream ends: inside a value or between values, or in an error. -/
inductive Ending where
  | closed
  | broken
  deriving DecidableEq

/-- A tail in which no value is found, however much of it has been received. -/
def Tail (t : Bytes) : Ending → Prop
  | .closed => t ≠ [] → Starts t ∧ ∀ p, p ≠ [] → p <+: t → D.next p = .eof
  | .broken => Starts t ∧ D.next t = .malformed ∧
    ∀ p, p ≠ [] → p <+: t → D.next p = .eof ∨ D.next p = .malformed

inductive Stream : Bytes → List V → Ending → Prop
  | tail (t : Bytes) (e : Ending) (h : Tail D t e) : Stream t [] e
  | blank (b : UInt8) (s : Bytes) (vs : List V) (e : Ending) (hb : isAsciiWhitespace b = true)
      (hs : Stream s vs e) : Stream (b::s) vs e
  | text (t s : Bytes) (v : V) (vs : List V) (e : Ending) (ht : Framed D t v)
      (hs : Stream s vs e) : Stream (t++s) (v::vs) e

theorem stream_nil (vs : List V) (e : Ending) (h : Stream D [] vs e) : vs = [] ∧ e = .closed := by
  generalize hs : ([] : Bytes) = s at h
  cases h with
  | tail t e h =>
    cases e with
    | closed => exact ⟨rfl,rfl⟩
    | broken =>
      obtain ⟨b,t,rfl,_⟩ := h.1
      cases hs
  | blank => cases hs
  | text t s v vs e ht hs' =>
    obtain ⟨b,t,rfl,_⟩ := ht.starts
    cases hs

/-- Leading blank bytes may be discarded. -/
theorem stream_tail (x : UInt8) (s : Bytes) (vs : List V) (e : Ending)
    (hx : isAsciiWhitespace x = true) (h : Stream D (x::s) vs e) : Stream D s vs e := by
  have hno : ∀ t, Starts t → ∀ s', x::s = t++s' → False := by
    rintro t ⟨b,t,rfl,hb⟩ s' he
    cases he
    simp [hx] at hb
  generalize hs : x::s = s0 at h
  cases h with
  | tail t e h =>
    subst hs
    cases e with
    | closed => exact absurd (by simp) (hno _ (h (by simp)).1 [])
    | broken => exact absurd (by simp) (hno _ h.1 [])
  | blank b s vs e hb h =>
    cases hs
    exact h
  | text t s v vs e ht h => exact absurd hs (hno t ht.starts s)

theorem stream_strip (b r : Bytes) (vs : List V) (e : Ending) (h : Stream D (b++r) vs e) :
    Stream D (strip b++r) vs e := by
  induction b with
  | nil => exact h
  | cons x b ih =>
    by_cases hx : isAsciiWhitespace x = true
    · have hs : strip (x::b) = strip b := by simp [strip, hx]
      rw [hs]
      exact ih (stream_tail D x (b++r) vs e hx h)
    · have hs : strip (x::b) = x::b := by simp [strip, hx]
      rw [hs]
      exact h

/-- What a deserializer finds in the received part `b` of a stream. -/
theorem stream_next (b r : Bytes) (vs : List V) (e : Ending) (hb : Starts b)
    (h : Stream D (b++r) vs e) :
    (∃ t b' v vs', b = t++b' ∧ vs = v::vs' ∧ D.next b = .value v t.length ∧
      Stream D (b'++r) vs' e) ∨
    (D.next b = .eof ∧ (r = [] → vs = [] ∧ e = .closed)) ∨
    (D.next b = .malformed ∧ vs = [] ∧ e = .broken) := by
  obtain ⟨x,b0,rfl,hx⟩ := hb
  generalize hs : (x::b0)++r = s at h
  cases h with
  | tail _ e h =>
    have hp : x::b0 <+: s := ⟨r,hs⟩
    have ht : s ≠ [] := by
      rintro rfl
      simp at hs
    cases e with
    | closed => exact .inr (.inl ⟨(h ht).2 _ (by simp) hp,fun _ => ⟨rfl,rfl⟩⟩)
    | broken =>
      rcases h.2.2 _ (by simp) hp with hn | hn
      · right
        left
        constructor
        · exact hn
        · rintro rfl
          rw [List.append_nil] at hs
          rw [hs, h.2.1] at hn
          cases hn
      · exact .inr (.inr ⟨hn,rfl,rfl⟩)
  | blank y s vs e hy h =>
    cases hs
    simp [hx] at hy
  | text t s v vs e ht h =>
    by_cases hlen : t.length ≤ (x::b0).length
    · left
      have hpre : t <+: x::b0 := List.prefix_of_prefix_length_le ⟨s,rfl⟩ ⟨r,hs⟩ hlen
      obtain ⟨b',hb'⟩ := hpre
      have hs' : b'++r = s := by
        rw [← hb', List.append_assoc] at hs
        exact List.append_cancel_left hs
      exact ⟨t,b',v,vs,hb'.symm,rfl,hb' ▸ ht.complete b',hs' ▸ h⟩
    · right
      left
      have hpre : x::b0 <+: t :=
        List.prefix_of_prefix_length_le ⟨r,hs⟩ ⟨s,rfl⟩ (by omega)
      constructor
      · apply ht.waits _ (by simp) hpre
        intro he
        rw [he] at hlen
        omega
      · rintro rfl
        have := congrArg List.length hs
        simp only [List.append_nil, List.length_append] at this
        omega

end Streams

/-! ## Tables of texts -/

section Tables

variable {V : Type}

/-- A deserializer that knows a table of texts. -/
def ofTexts (table : List (Bytes × V)) : Deserializer V where
  next b :=
    if b = [] then .finished
    else
      match table.find? (fun p => decide (p.1 ≠ [] ∧ p.1 <+: b)) with
      | some p => .value p.2 p.1.length
      | none => if table.any (fun p => decide (b <+: p.1)) = true then .eof else .malformed
  offset b v n h := by
    by_cases hb : b = []
    · rw [if_pos hb] at h
      cases h
    · rw [if_neg hb] at h
      cases hf : table.find? (fun p => decide (p.1 ≠ [] ∧ p.1 <+: b)) with
      | none =>
        simp only [hf] at h
        split_ifs at h
      | some p =>
        simp only [hf] at h
        cases h
        have hp := List.find?_some hf
        simp only [decide_eq_true_eq] at hp
        exact ⟨List.length_pos_iff.mpr hp.1,hp.2.length_le⟩

def Apart (p q : Bytes × V) : Prop := ¬ p.1 <+: q.1 ∧ ¬ q.1 <+: p.1

instance (p q : Bytes × V) : Decidable (Apart p q) := inferInstanceAs (Decidable (_ ∧ _))

instance : Std.Symm (Apart (V := V)) where
  symm _ _ h := ⟨h.2,h.1⟩

/-- No text of the table begins another. -/
def PrefixFree (table : List (Bytes × V)) : Prop := table.Pairwise Apart

instance (table : List (Bytes × V)) : Decidable (PrefixFree table) :=
  inferInstanceAs (Decidable (table.Pairwise Apart))

theorem prefixFree_eq (table : List (Bytes × V)) (h : PrefixFree table) (p q : Bytes × V)
    (hp : p ∈ table) (hq : q ∈ table) (hpq : p.1 <+: q.1) : p = q := by
  by_contra hne
  exact (List.Pairwise.forall h hp hq hne).1 hpq

theorem ofTexts_framed (table : List (Bytes × V)) (h : PrefixFree table) (t : Bytes) (v : V)
    (hm : (t,v) ∈ table) (hs : Starts t) : Framed (ofTexts table) t v := by
  have hne : t ≠ [] := by
    obtain ⟨b,s,rfl,_⟩ := hs
    simp
  constructor
  · exact hs
  · intro rest
    have hf : table.find? (fun p => decide (p.1 ≠ [] ∧ p.1 <+: t++rest)) = some (t,v) := by
      obtain ⟨p,hp⟩ := Option.isSome_iff_exists.mp (List.find?_isSome.mpr
        ⟨(t,v),hm,by simp [hne]⟩ :
          (table.find? (fun p => decide (p.1 ≠ [] ∧ p.1 <+: t++rest))).isSome = true)
      have hpt := List.find?_some hp
      simp only [decide_eq_true_eq] at hpt
      have hmem := List.mem_of_find?_eq_some hp
      rw [hp]
      rcases List.prefix_or_prefix_of_prefix hpt.2 (List.prefix_append t rest) with hpre | hpre
      · rw [prefixFree_eq table h p (t,v) hmem hm hpre]
      · rw [prefixFree_eq table h (t,v) p hm hmem hpre]
    simp only [ofTexts, List.append_eq_nil_iff, hne, false_and, if_false, hf]
  · intro p hp hpt hpne
    have hf : table.find? (fun q => decide (q.1 ≠ [] ∧ q.1 <+: p)) = none := by
      rw [List.find?_eq_none]
      intro q hq hqp
      simp only [decide_eq_true_eq] at hqp
      have he := prefixFree_eq table h q (t,v) hq hm (hqp.2.trans hpt)
      rw [he] at hqp
      exact hpne (hpt.eq_of_length (le_antisymm hpt.length_le hqp.2.length_le))
    have ha : table.any (fun q => decide (p <+: q.1)) = true :=
      List.any_eq_true.mpr ⟨(t,v),hm,by simpa using hpt⟩
    simp only [ofTexts, hp, if_false, hf, ha, if_true]

end Tables

end RlStatsApi.StreamFraming
