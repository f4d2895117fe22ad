import Mathlib.Data.List.Forall2
import Mathlib.Tactic.Common

/-!
# Checked state transformers

A program changes a state and can fail. `Returns` is its total correctness
from one state, and its laws compute it through the program's structure.
A program that moves its state only along a given relation is described by
its result alone, and its rules are those of that relation.
-/

set_option autoImplicit false

namespace RlStatsApi.CheckedState

variable {σ α β : Type} {ι : Type*}

/-- From this state the program returns, with a result and a state in `Q`. -/
def Returns (x : StateT σ Option α) (s : σ) (Q : α → σ → Prop) : Prop :=
  ∃ a s', x s = some (a,s') ∧ Q a s'

theorem returns_mono {x : StateT σ Option α} {s : σ} {Q Q' : α → σ → Prop}
    (h : Returns x s Q) (hq : ∀ a s', Q a s' → Q' a s') : Returns x s Q' := by
  obtain ⟨a,s',hx,ha⟩ := h
  exact ⟨a,s',hx,hq a s' ha⟩

/-- The result and the state are those of the run. -/
theorem returns_run {x : StateT σ Option α} {s : σ} {Q : α → σ → Prop} (h : Returns x s Q) :
    Returns x s (fun a s' => x s = some (a,s') ∧ Q a s') := by
  obtain ⟨a,s',hx,ha⟩ := h
  exact ⟨a,s',hx,hx,ha⟩

/-- There is one result. -/
theorem returns_and {x : StateT σ Option α} {s : σ} {Q Q' : α → σ → Prop} (h : Returns x s Q)
    (h' : Returns x s Q') : Returns x s (fun a s' => Q a s' ∧ Q' a s') := by
  obtain ⟨a,s1,hx,ha⟩ := h
  obtain ⟨b,s2,hx',hb⟩ := h'
  rw [hx] at hx'
  cases hx'
  exact ⟨a,s1,hx,ha,hb⟩

@[simp] theorem returns_pure (a : α) (s : σ) (Q : α → σ → Prop) :
    Returns (pure a) s Q ↔ Q a s := by
  constructor
  · rintro ⟨b,t,hb,hq⟩
    cases hb
    exact hq
  · exact fun hq => ⟨a,s,rfl,hq⟩

theorem bind_run (x : StateT σ Option α) (f : α → StateT σ Option β) (s : σ) :
    (x >>= f) s = (x s).bind (fun p => f p.1 p.2) := rfl

@[simp] theorem returns_bind (x : StateT σ Option α) (f : α → StateT σ Option β) (s : σ)
    (Q : β → σ → Prop) :
    Returns (x >>= f) s Q ↔ Returns x s (fun a s' => Returns (f a) s' Q) := by
  rw [Returns, bind_run]
  constructor
  · rintro ⟨b,t,hb,hq⟩
    obtain ⟨⟨a,s'⟩,ha,hf⟩ := Option.bind_eq_some_iff.mp hb
    exact ⟨a,s',ha,b,t,hf,hq⟩
  · rintro ⟨a,s',ha,b,t,hf,hq⟩
    exact ⟨b,t,by rw [ha, Option.bind_some, hf],hq⟩

theorem returns_then {x : StateT σ Option α} {f : α → StateT σ Option β} {s : σ}
    {Q : α → σ → Prop} {Q' : β → σ → Prop} (h : Returns x s Q)
    (hf : ∀ a s', Q a s' → Returns (f a) s' Q') : Returns (x >>= f) s Q' :=
  (returns_bind x f s Q').mpr (returns_mono h hf)

@[simp] theorem returns_map (x : StateT σ Option α) (f : α → β) (s : σ) (Q : β → σ → Prop) :
    Returns (f <$> x) s Q ↔ Returns x s (fun a s' => Q (f a) s') := by
  rw [← bind_pure_comp, returns_bind]
  simp only [returns_pure]

theorem map_run (x : StateT σ Option α) (f : α → β) (s : σ) :
    (f <$> x) s = (x s).map (fun p => (f p.1,p.2)) := by
  rw [Option.map_eq_bind]
  rfl

@[simp] theorem returns_get (s : σ) (Q : σ → σ → Prop) : Returns get s Q ↔ Q s s :=
  returns_pure s s Q

@[simp] theorem returns_modify (f : σ → σ) (s : σ) (Q : PUnit → σ → Prop) :
    Returns (modify f) s Q ↔ Q ⟨⟩ (f s) := by
  constructor
  · rintro ⟨b,t,hb,hq⟩
    cases hb
    exact hq
  · exact fun hq => ⟨⟨⟩,f s,rfl,hq⟩

@[simp] theorem returns_set (s' s : σ) (Q : PUnit → σ → Prop) :
    Returns (set s') s Q ↔ Q ⟨⟩ s' :=
  returns_modify (fun _ => s') s Q

@[simp] theorem returns_lift (o : Option α) (s : σ) (Q : α → σ → Prop) :
    Returns (liftM o) s Q ↔ ∃ a, o = some a ∧ Q a s := by
  cases o with
  | none =>
    constructor
    · rintro ⟨a,t,ha,_⟩
      cases ha
    · rintro ⟨a,ha,_⟩
      cases ha
  | some a =>
    rw [show (liftM (some a) : StateT σ Option α) = pure a from rfl, returns_pure]
    simp

/-- A fold keeps an invariant over the items done so far. -/
theorem returns_foldlM (f : β → ι → StateT σ Option β) (xs : List ι)
    (I : List ι → β → σ → Prop)
    (hstep : ∀ done x rest b s, xs = done++x::rest → I done b s →
      Returns (f b x) s (I (done++[x])))
    (b : β) (s : σ) (h : I [] b s) : Returns (xs.foldlM f b) s (I xs) := by
  have hrest : ∀ done rest b s, xs = done++rest → I done b s →
      Returns (rest.foldlM f b) s (I xs) := by
    intro done rest
    induction rest generalizing done with
    | nil =>
      intro b s hx hi
      rw [List.append_nil] at hx
      rw [List.foldlM_nil, returns_pure, hx]
      exact hi
    | cons x rest ih =>
      intro b s hx hi
      rw [List.foldlM_cons]
      refine returns_then (hstep done x rest b s hx hi) fun b' s' hi' => ?_
      exact ih (done++[x]) b' s' (by rw [hx, List.append_assoc, List.singleton_append]) hi'
  exact hrest [] xs b s rfl h

/-! ## Programs that move along a relation -/

/-- A preorder on the states that keeps a precondition. -/
structure Frame (P : σ → Prop) (R : σ → σ → Prop) : Prop where
  refl : ∀ s, R s s
  trans : ∀ s t w, R s t → R t w → R s w
  keeps : ∀ s t, R s t → P s → P t

/-- Wherever the precondition holds the program returns, the state moves
along the relation only, and the result is in `Q`. -/
def Within (P : σ → Prop) (R : σ → σ → Prop) (x : StateT σ Option α) (Q : α → Prop) : Prop :=
  ∀ s, P s → Returns x s (fun a s' => R s s' ∧ Q a)

section Rules

variable {P : σ → Prop} {R : σ → σ → Prop}

theorem within_mono {x : StateT σ Option α} {Q Q' : α → Prop} (h : Within P R x Q)
    (hq : ∀ a, Q a → Q' a) : Within P R x Q' :=
  fun s hs => returns_mono (h s hs) fun a _ ha => ⟨ha.1,hq a ha.2⟩

theorem within_then {x : StateT σ Option α} {f : α → StateT σ Option β} {s : σ} {Q : α → Prop}
    {Q' : β → σ → Prop} (h : Within P R x Q) (hs : P s)
    (hf : ∀ a s', R s s' → Q a → Returns (f a) s' Q') : Returns (x >>= f) s Q' :=
  returns_then (h s hs) fun a s' ha => hf a s' ha.1 ha.2

variable (hF : Frame P R)
include hF

theorem within_pure (a : α) (Q : α → Prop) (ha : Q a) : Within P R (pure a) Q :=
  fun s _ => (returns_pure a s _).mpr ⟨hF.refl s,ha⟩

theorem within_lift (o : Option α) (Q : α → Prop) (ho : ∃ a, o = some a ∧ Q a) :
    Within P R (liftM o) Q := by
  obtain ⟨a,ha,hq⟩ := ho
  exact fun s _ => (returns_lift o s _).mpr ⟨a,ha,hF.refl s,hq⟩

theorem within_guard (p : Prop) [Decidable p] (hp : p) :
    Within P R (guard p) (fun _ => True) := by
  rw [guard, if_pos hp]
  exact within_pure hF _ _ trivial

theorem within_get : Within P R get P :=
  fun s hs => (returns_get s _).mpr ⟨hF.refl s,hs⟩

theorem within_bind {x : StateT σ Option α} {f : α → StateT σ Option β} {Q : α → Prop}
    {Q' : β → Prop} (hx : Within P R x Q) (hf : ∀ a, Q a → Within P R (f a) Q') :
    Within P R (x >>= f) Q' := by
  intro s hs
  refine within_then hx hs fun a s' hr ha => ?_
  refine returns_mono (hf a ha s' (hF.keeps s s' hr hs)) fun b t hb => ?_
  exact ⟨hF.trans s s' t hr hb.1,hb.2⟩

/-- A value that is known to be there is passed on. -/
theorem within_bind_lift {o : Option α} {a : α} (ho : o = some a) {f : α → StateT σ Option β}
    {Q : β → Prop} (hf : Within P R (f a) Q) : Within P R (liftM o >>= f) Q := by
  refine within_bind hF (within_lift hF o (· = a) ⟨a,ho,rfl⟩) ?_
  rintro _ rfl
  exact hf

theorem within_map {x : StateT σ Option α} {f : α → β} {Q : α → Prop} {Q' : β → Prop}
    (hx : Within P R x Q) (hf : ∀ a, Q a → Q' (f a)) : Within P R (f <$> x) Q' := by
  rw [← bind_pure_comp]
  exact within_bind hF hx fun a ha => within_pure hF (f a) Q' (hf a ha)

/-- The results of a traversal stand to its items as those of the single
programs do. -/
theorem within_mapM (f : ι → StateT σ Option β) (Q : ι → β → Prop) (xs : List ι)
    (h : ∀ x ∈ xs, Within P R (f x) (Q x)) :
    Within P R (xs.mapM f) (List.Forall₂ Q xs) := by
  induction xs with
  | nil =>
    rw [List.mapM_nil]
    exact within_pure hF [] _ List.Forall₂.nil
  | cons x xs ih =>
    rw [List.mapM_cons]
    refine within_bind hF (h x (by simp)) fun b hb => ?_
    refine within_bind hF (ih fun y hy => h y (by simp [hy])) fun bs hbs => ?_
    exact within_pure hF (b::bs) _ (List.Forall₂.cons hb hbs)

end Rules

end RlStatsApi.CheckedState
