import Mathlib.Data.List.Basic

/-!
# Bounded broadcast channels

A value that is sent is lost when nobody has subscribed; otherwise it goes to
a log that every receiver reads from the position it subscribed at. Only the
last values of the log are held, as many as the capacity. A receiver that has
fallen further behind is told how many it has missed, and goes on with the
oldest that is held.
-/

set_option autoImplicit false

namespace RlStatsApi.BoundedBroadcast

variable {α : Type*}

/-- The log, and every value offered so far with the number of receivers it
was sent to. -/
structure Channel (α : Type*) where
  log : List α
  outcomes : List (α × Option ℕ)

def Channel.new : Channel α := ⟨[],[]⟩

def Channel.offered (c : Channel α) : List α := c.outcomes.map Prod.fst

def Channel.send (c : Channel α) (receivers : ℕ) (a : α) : Channel α :=
  if receivers = 0 then {c with outcomes := c.outcomes++[(a,none)]}
  else ⟨c.log++[a],c.outcomes++[(a,some receivers)]⟩

inductive Received (α : Type*) where
  | value (a : α)
  | lagged (skipped : ℕ)
  | closed

/-- A receiver: where it subscribed, counted in values offered, its next
position in the log, and what it received. -/
structure Receiver (α : Type*) where
  first : ℕ
  next : ℕ
  history : List (Received α)

def Channel.subscribe (c : Channel α) : Receiver α := ⟨c.offered.length,c.log.length,[]⟩

/-- What a receiver gets next; nothing while it has to wait. -/
def Channel.poll (c : Channel α) (capacity : ℕ) (closed : Bool) (next : ℕ) :
    Option (Received α × ℕ) :=
  if next < c.log.length-capacity then
    some (.lagged (c.log.length-capacity-next),c.log.length-capacity)
  else
    match c.log[next]? with
    | some a => some (.value a,next+1)
    | none => if closed = true then some (.closed,next) else none

def Receiver.record (r : Receiver α) (x : Received α) (next : ℕ) : Receiver α :=
  {r with next := next, history := r.history++[x]}

/-! ## Histories -/

def Received.advance : Received α → ℕ
  | .value _ => 1
  | .lagged skipped => skipped
  | .closed => 0

def advance : List (Received α) → ℕ
  | [] => 0
  | x::h => x.advance+advance h

def values : List (Received α) → List α
  | [] => []
  | .value a::h => a::values h
  | .lagged _::h => values h
  | .closed::h => values h

def skipped : List (Received α) → ℕ
  | [] => 0
  | .value _::h => skipped h
  | .lagged k::h => k+skipped h
  | .closed::h => skipped h

/-- Each value of the history is at its place in the log: as many values
behind the start as were received or reported missing before it. -/
def Follows (log : List α) : ℕ → List (Received α) → Prop
  | _, [] => True
  | i, .value a::h => log[i]? = some a ∧ Follows log (i+1) h
  | i, .lagged k::h => Follows log (i+k) h
  | i, .closed::h => Follows log i h

theorem advance_append (h h' : List (Received α)) : advance (h++h') = advance h+advance h' := by
  induction h with
  | nil => simp [advance]
  | cons x h ih => rw [List.cons_append, advance, advance, ih, Nat.add_assoc]

theorem values_append (h h' : List (Received α)) : values (h++h') = values h++values h' := by
  induction h with
  | nil => rfl
  | cons x h ih => cases x <;> simp [values, ih]

theorem skipped_append (h h' : List (Received α)) : skipped (h++h') = skipped h+skipped h' := by
  induction h with
  | nil => simp [skipped]
  | cons x h ih => cases x <;> simp [skipped, ih, Nat.add_assoc]

theorem advance_eq (h : List (Received α)) : advance h = (values h).length+skipped h := by
  induction h with
  | nil => rfl
  | cons x h ih =>
    cases x <;> simp only [advance, Received.advance, values, skipped, List.length_cons, ih]
      <;> omega

theorem follows_append (log : List α) (i : ℕ) (h h' : List (Received α)) :
    Follows log i (h++h') ↔ Follows log i h ∧ Follows log (i+advance h) h' := by
  induction h generalizing i with
  | nil => simp [Follows, advance]
  | cons x h ih =>
    cases x <;> simp only [List.cons_append, Follows, ih, advance, Received.advance, and_assoc,
      Nat.add_assoc, Nat.zero_add]

theorem follows_grow (log more : List α) (i : ℕ) (h : List (Received α)) (hf : Follows log i h) :
    Follows (log++more) i h := by
  induction h generalizing i with
  | nil => trivial
  | cons x h ih =>
    cases x with
    | value a =>
      have hi : i < log.length := (List.getElem?_eq_some_iff.mp hf.1).1
      exact ⟨(List.getElem?_append_left hi).trans hf.1,ih _ hf.2⟩
    | lagged k => exact ih _ hf
    | closed => exact ih _ hf

/-- The values received are values of the log in its order, none of them
twice. -/
theorem follows_sublist (log : List α) (i : ℕ) (h : List (Received α)) (hf : Follows log i h) :
    (values h).Sublist (log.drop i) := by
  induction h generalizing i with
  | nil => exact List.nil_sublist _
  | cons x h ih =>
    cases x with
    | value a =>
      obtain ⟨hi,ha⟩ := List.getElem?_eq_some_iff.mp hf.1
      rw [List.drop_eq_getElem_cons hi, ha]
      exact (ih _ hf.2).cons_cons a
    | lagged k =>
      have hk : (log.drop (i+k)).Sublist (log.drop i) := by
        rw [← List.drop_drop]
        exact List.drop_sublist k _
      exact (ih _ hf).trans hk
    | closed => exact ih _ hf

/-- Without a lag nothing is missing in between. -/
theorem follows_unbroken (log : List α) (i : ℕ) (h : List (Received α)) (hf : Follows log i h)
    (hs : skipped h = 0) : values h <+: log.drop i := by
  induction h generalizing i with
  | nil => exact List.nil_prefix
  | cons x h ih =>
    cases x with
    | value a =>
      obtain ⟨hi,ha⟩ := List.getElem?_eq_some_iff.mp hf.1
      rw [List.drop_eq_getElem_cons hi, ha]
      exact (List.prefix_cons_inj a).mpr (ih _ hf.2 hs)
    | lagged k =>
      obtain ⟨rfl,hrest⟩ := Nat.add_eq_zero_iff.mp hs
      exact ih _ hf hrest
    | closed => exact ih _ hf hs

/-! ## Receivers -/

section Channels

variable (c : Channel α)

theorem send_offered (receivers : ℕ) (a : α) :
    (c.send receivers a).offered = c.offered++[a] := by
  unfold Channel.send Channel.offered
  split_ifs <;> simp

theorem send_log (receivers : ℕ) (a : α) (h : receivers ≠ 0) :
    (c.send receivers a).log = c.log++[a] := by
  rw [Channel.send, if_neg h]

/-- A receiver that is subscribed: what lies before it in the log is what was
offered since, less what it has received and missed. -/
structure Receiver.Subscribed (c : Channel α) (r : Receiver α) : Prop where
  within : r.next ≤ c.log.length
  offered : r.first+advance r.history ≤ c.offered.length
  ahead : c.log.drop r.next = c.offered.drop (r.first+advance r.history)

theorem subscribe_subscribed : c.subscribe.Subscribed c where
  within := Nat.le_refl _
  offered := Nat.le_refl _
  ahead := by simp [Channel.subscribe, advance]

variable (r : Receiver α)

theorem subscribed_ahead (hr : r.Subscribed c) :
    c.log.length-r.next = c.offered.length-(r.first+advance r.history) := by
  have h := congrArg List.length hr.ahead
  rwa [List.length_drop, List.length_drop] at h

theorem send_subscribed (receivers : ℕ) (a : α) (h : receivers ≠ 0) (hr : r.Subscribed c) :
    r.Subscribed (c.send receivers a) := by
  have hlog := send_log c receivers a h
  have hoffered := send_offered c receivers a
  refine ⟨?_,?_,?_⟩
  · rw [hlog, List.length_append]
    exact Nat.le_add_right_of_le hr.within
  · rw [hoffered, List.length_append]
    exact Nat.le_add_right_of_le hr.offered
  · rw [hlog, hoffered, List.drop_append_of_le_length hr.within,
      List.drop_append_of_le_length hr.offered, hr.ahead]

/-- What a poll can give. -/
inductive Polled (capacity : ℕ) (closed : Bool) (next : ℕ) : Received α → ℕ → Prop
  | value (a : α) (held : c.log.length ≤ next+capacity) (ha : c.log[next]? = some a) :
      Polled capacity closed next (.value a) (next+1)
  | lagged (k : ℕ) (behind : next+capacity < c.log.length) (hk : next+k+capacity = c.log.length) :
      Polled capacity closed next (.lagged k) (next+k)
  | closed (drained : c.log.length ≤ next) (hc : closed = true) :
      Polled capacity closed next .closed next

theorem poll_cases (capacity : ℕ) (closed : Bool) (next : ℕ) (x : Received α) (next' : ℕ)
    (h : c.poll capacity closed next = some (x,next')) :
    Polled c capacity closed next x next' := by
  unfold Channel.poll at h
  by_cases hlag : next < c.log.length-capacity
  · rw [if_pos hlag] at h
    cases h
    have hnext : c.log.length-capacity = next+(c.log.length-capacity-next) := by omega
    have hlagged : Polled c capacity closed next (.lagged (c.log.length-capacity-next))
        (next+(c.log.length-capacity-next)) := .lagged _ (by omega) (by omega)
    rwa [← hnext] at hlagged
  · rw [if_neg hlag] at h
    split at h
    · next a ha =>
      cases h
      exact .value a (by omega) ha
    · next hnone =>
      split_ifs at h with hc
      cases h
      exact .closed (List.getElem?_eq_none_iff.mp hnone) hc

theorem polled_subscribed (capacity : ℕ) (closed : Bool) (x : Received α) (next : ℕ)
    (h : Polled c capacity closed r.next x next) (hr : r.Subscribed c) :
    (r.record x next).Subscribed c := by
  have hahead := subscribed_ahead c r hr
  have hlen := hr.offered
  cases h with
  | value a held ha =>
    have hlt : r.next < c.log.length := (List.getElem?_eq_some_iff.mp ha).1
    refine ⟨hlt,?_,?_⟩
    · simp only [Receiver.record, advance_append, advance, Received.advance]
      omega
    · have hdrop := congrArg (List.drop 1) hr.ahead
      rw [List.drop_drop, List.drop_drop] at hdrop
      simpa [Receiver.record, advance_append, advance, Received.advance, Nat.add_assoc] using hdrop
  | lagged k behind hk =>
    refine ⟨by simp only [Receiver.record]; omega,?_,?_⟩
    · simp only [Receiver.record, advance_append, advance, Received.advance]
      omega
    · have hdrop := congrArg (List.drop k) hr.ahead
      rw [List.drop_drop, List.drop_drop] at hdrop
      simpa [Receiver.record, advance_append, advance, Received.advance, Nat.add_assoc] using hdrop
  | closed drained hc =>
    exact ⟨hr.within,by simpa [Receiver.record, advance_append, advance, Received.advance] using hlen,
      by simpa [Receiver.record, advance_append, advance, Received.advance] using hr.ahead⟩

theorem polled_follows (capacity : ℕ) (closed : Bool) (x : Received α) (next : ℕ)
    (h : Polled c capacity closed r.next x next) (hr : r.Subscribed c)
    (hf : Follows c.offered r.first r.history) :
    Follows c.offered r.first (r.record x next).history := by
  refine (follows_append _ _ _ _).mpr ⟨hf,?_⟩
  cases h with
  | value a held ha =>
    refine ⟨?_,trivial⟩
    have hhead := congrArg List.head? hr.ahead
    rw [List.head?_drop, List.head?_drop, ha] at hhead
    exact hhead.symm
  | lagged k behind hk => trivial
  | closed drained hc => trivial

/-- A lag is reported only after more values than the capacity. -/
theorem polled_lag (capacity : ℕ) (closed : Bool) (k : ℕ) (next : ℕ)
    (h : Polled c capacity closed r.next (.lagged k) next) (hr : r.Subscribed c) :
    r.first+advance r.history+k+capacity = c.offered.length ∧ 0 < k := by
  have hahead := subscribed_ahead c r hr
  have hlen := hr.offered
  cases h with
  | lagged _ behind hk => omega

end Channels

end RlStatsApi.BoundedBroadcast
