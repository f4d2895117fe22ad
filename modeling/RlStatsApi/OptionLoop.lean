import Mathlib.Data.List.Basic

/-!
# Loops over command line arguments

A loop takes one argument after the other. An argument is a flag, asks for the
argument after it as its value, ends the loop with an answer of its own, or is
refused. A line that is read to its end is a sequence of groups, each a flag or
a name with its value, and a field of the result is what the groups make of it
one after the other.
-/

set_option autoImplicit false

namespace RlStatsApi.OptionLoop

inductive Entry (σ ε ρ : Type*) where
  | flag (set : σ → σ)
  | valued (missing : ε) (set : String → σ → Except ε σ)
  | leave (answer : ρ)
  | refuse (error : ε)

variable {σ ε ρ τ : Type*} (entry : String → Entry σ ε ρ)

def parse : List String → σ → Except ε (σ ⊕ ρ)
  | [], s => .ok (.inl s)
  | arg::args, s =>
    match entry arg with
    | .flag set => parse args (set s)
    | .valued missing set =>
      match args with
      | [] => .error missing
      | value::args =>
        match set value s with
        | .ok s => parse args s
        | .error e => .error e
    | .leave answer => .ok (.inr answer)
    | .refuse e => .error e

/-! ## Groups -/

inductive Group : List String → (σ → Except ε σ) → Prop
  | flag (arg : String) (set : σ → σ) (h : entry arg = .flag set) :
      Group [arg] (fun s => .ok (set s))
  | valued (arg value : String) (missing : ε) (set : String → σ → Except ε σ)
      (h : entry arg = .valued missing set) : Group [arg,value] (set value)

inductive Settles : List (List String) → σ → σ → Prop
  | nil (s : σ) : Settles [] s s
  | cons (group : List String) (groups : List (List String)) (set : σ → Except ε σ) (s s' s'' : σ)
      (hg : Group entry group set) (hs : set s = .ok s') (h : Settles groups s' s'') :
      Settles (group::groups) s s''

theorem parse_group (group args : List String) (set : σ → Except ε σ) (s s' : σ)
    (hg : Group entry group set) (hs : set s = .ok s') :
    parse entry (group++args) s = parse entry args s' := by
  cases hg with
  | flag arg set h =>
    cases hs
    rw [List.singleton_append, parse, h]
  | valued arg value missing set h =>
    rw [List.cons_append, List.singleton_append, parse, h]
    simp only [hs]

theorem parse_settles (groups : List (List String)) (args : List String) (s s' : σ)
    (h : Settles entry groups s s') :
    parse entry (groups.flatten++args) s = parse entry args s' := by
  induction h with
  | nil s => rfl
  | cons group groups set s s' s'' hg hs _ ih =>
    rw [List.flatten_cons, List.append_assoc, parse_group entry group _ set s s' hg hs, ih]

/-- Where a loop ends that is not refused: at the end of the line, or at an
argument with its own answer. -/
inductive Ended (args : List String) (s : σ) : σ ⊕ ρ → Prop
  | settled (groups : List (List String)) (s' : σ) (hargs : args = groups.flatten)
      (h : Settles entry groups s s') : Ended args s (.inl s')
  | left (groups : List (List String)) (s' : σ) (arg : String) (rest : List String) (answer : ρ)
      (hargs : args = groups.flatten++arg::rest) (h : Settles entry groups s s')
      (ha : entry arg = .leave answer) : Ended args s (.inr answer)

theorem ended_group (group args : List String) (set : σ → Except ε σ) (s s' : σ) (r : σ ⊕ ρ)
    (hg : Group entry group set) (hs : set s = .ok s') (h : Ended entry args s' r) :
    Ended entry (group++args) s r := by
  cases h with
  | settled groups s'' hargs h =>
    exact .settled (group::groups) s'' (by rw [hargs, List.flatten_cons])
      (.cons group groups set s s' s'' hg hs h)
  | left groups s'' arg rest answer hargs h ha =>
    exact .left (group::groups) s'' arg rest answer
      (by rw [hargs, List.flatten_cons, List.append_assoc])
      (.cons group groups set s s' s'' hg hs h) ha

theorem parse_ended (args : List String) (s : σ) (r : σ ⊕ ρ) (h : parse entry args s = .ok r) :
    Ended entry args s r := by
  fun_induction parse entry args s with
  | case1 s =>
    cases h
    exact .settled [] s rfl (.nil s)
  | case2 arg args s set ha ih =>
    exact ended_group entry [arg] args _ s _ r (.flag arg set ha) rfl (ih h)
  | case3 arg s missing set ha => cases h
  | case4 arg s missing set ha value args s' hs ih =>
    exact ended_group entry [arg,value] args _ s s' r (.valued arg value missing set ha) hs (ih h)
  | case5 arg s missing set ha value args e hs => cases h
  | case6 arg args s answer ha =>
    cases h
    exact .left [] s arg args answer rfl (.nil s) ha
  | case7 arg args s e ha => cases h

theorem parse_iff (args : List String) (s : σ) (r : σ ⊕ ρ) :
    parse entry args s = .ok r ↔ Ended entry args s r := by
  constructor
  · exact parse_ended entry args s r
  · intro h
    cases h with
    | settled groups s' hargs h =>
      have hread := parse_settles entry groups [] s s' h
      rw [List.append_nil] at hread
      rw [hargs, hread]
      rfl
    | left groups s' arg rest answer hargs h ha =>
      rw [hargs, parse_settles entry groups _ s s' h, parse, ha]

/-- What comes after a line that is read to its end is read as if the line
before had been the defaults. -/
theorem parse_append (args args' : List String) (s s' : σ)
    (h : parse entry args s = .ok (.inl s')) :
    parse entry (args++args') s = parse entry args' s' := by
  cases parse_ended entry args s _ h with
  | settled groups _ hargs h => rw [hargs, parse_settles entry groups args' s s' h]

/-! ## What the groups do -/

/-- The groups that a loop reads and what each of them makes of a state. -/
structure Described (good : List String → Prop) (applied : List String → σ → σ) : Prop where
  sound : ∀ group set s s', Group entry group set → set s = .ok s' →
    good group ∧ s' = applied group s
  complete : ∀ group, good group → ∃ set, Group entry group set ∧ ∀ s, set s = .ok (applied group s)

def applyAll (applied : List String → σ → σ) (groups : List (List String)) (s : σ) : σ :=
  groups.foldl (fun s group => applied group s) s

section Described

variable {entry} {good : List String → Prop} {applied : List String → σ → σ}
  (hd : Described entry good applied)

include hd

theorem settles_iff (groups : List (List String)) (s s' : σ) :
    Settles entry groups s s' ↔ (∀ group ∈ groups, good group) ∧ s' = applyAll applied groups s := by
  constructor
  · intro h
    induction h with
    | nil s => exact ⟨by simp,rfl⟩
    | cons group groups set s s' s'' hg hs _ ih =>
      obtain ⟨hgood,rfl⟩ := hd.sound group set s s' hg hs
      refine ⟨?_,ih.2⟩
      intro g hmem
      rcases List.mem_cons.mp hmem with rfl | hmem
      · exact hgood
      · exact ih.1 g hmem
  · rintro ⟨hgood,rfl⟩
    induction groups generalizing s with
    | nil => exact .nil s
    | cons group groups ih =>
      obtain ⟨set,hg,hset⟩ := hd.complete group (hgood group List.mem_cons_self)
      exact .cons group groups set s _ _ hg (hset s)
        (ih (applied group s) (fun g hmem => hgood g (List.mem_cons_of_mem group hmem)))

/-- The lines that are read to their end, and what they are read as. -/
theorem parse_settled_iff (args : List String) (s s' : σ) :
    parse entry args s = .ok (.inl s') ↔ ∃ groups : List (List String), args = groups.flatten ∧
      (∀ group ∈ groups, good group) ∧ s' = applyAll applied groups s := by
  rw [parse_iff]
  constructor
  · intro h
    cases h with
    | settled groups _ hargs h => exact ⟨groups,hargs,(settles_iff hd groups s s').mp h⟩
  · rintro ⟨groups,hargs,h⟩
    exact .settled groups s' hargs ((settles_iff hd groups s s').mpr h)

/-- The lines that end at an argument with its own answer. -/
theorem parse_left_iff (args : List String) (s : σ) (answer : ρ) :
    parse entry args s = .ok (.inr answer) ↔ ∃ (groups : List (List String)) (arg : String)
      (rest : List String), args = groups.flatten++arg::rest ∧ (∀ group ∈ groups, good group) ∧
      entry arg = .leave answer := by
  rw [parse_iff]
  constructor
  · intro h
    cases h with
    | left groups s' arg rest _ hargs h ha =>
      exact ⟨groups,arg,rest,hargs,((settles_iff hd groups s s').mp h).1,ha⟩
  · rintro ⟨groups,arg,rest,hargs,hgood,ha⟩
    exact .left groups _ arg rest answer hargs ((settles_iff hd groups s _).mpr ⟨hgood,rfl⟩) ha

end Described

/-! ## Fields -/

/-- The last of what the groups give a field. -/
def last (setting : List String → Option τ) (groups : List (List String)) : Option τ :=
  (groups.filterMap setting).getLast?

theorem last_cons (setting : List String → Option τ) (group : List String)
    (groups : List (List String)) :
    last setting (group::groups) = (last setting groups).or (setting group) := by
  rw [last, List.filterMap_cons, last]
  cases setting group with
  | none => simp
  | some t => cases h : (groups.filterMap setting).getLast? <;> simp [List.getLast?_cons, h]

theorem last_append (setting : List String → Option τ) (groups groups' : List (List String)) :
    last setting (groups++groups') = (last setting groups').or (last setting groups) := by
  induction groups with
  | nil => simp [last]
  | cons group groups ih => rw [List.cons_append, last_cons, last_cons, ih, Option.or_assoc]

/-- A group that is there when there is a value for it. -/
def whenGiven (o : Option τ) (group : τ → List String) : List (List String) := (o.map group).toList

theorem last_whenGiven {υ : Type*} (setting : List String → Option τ) (o : Option υ)
    (group : υ → List String) : last setting (whenGiven o group) = o.bind (fun u => setting (group u)) := by
  cases o with
  | none => rfl
  | some u => cases h : setting (group u) <;> simp [last, whenGiven, h]

theorem mem_whenGiven (o : Option τ) (group : τ → List String) (g : List String)
    (h : g ∈ whenGiven o group) : ∃ t, o = some t ∧ g = group t := by
  cases o with
  | none => cases h
  | some t => exact ⟨t,rfl,List.mem_singleton.mp h⟩

theorem last_none (setting : List String → Option τ) (groups : List (List String))
    (h : ∀ group ∈ groups, setting group = none) : last setting groups = none := by
  rw [last, List.filterMap_eq_nil_iff.mpr h]
  rfl

/-- A field that a group gives a value or leaves alone has the last value that
it is given. -/
theorem applyAll_last (applied : List String → σ → σ) (f : σ → Option τ)
    (setting : List String → Option τ)
    (hset : ∀ group s, f (applied group s) = (setting group).or (f s))
    (groups : List (List String)) (s : σ) :
    f (applyAll applied groups s) = (last setting groups).or (f s) := by
  induction groups generalizing s with
  | nil => rfl
  | cons group groups ih =>
    change f (applyAll applied groups (applied group s)) = _
    rw [ih, hset, last_cons, Option.or_assoc]

theorem applyAll_getD (applied : List String → σ → σ) (f : σ → τ)
    (setting : List String → Option τ)
    (hset : ∀ group s, f (applied group s) = (setting group).getD (f s))
    (groups : List (List String)) (s : σ) :
    f (applyAll applied groups s) = (last setting groups).getD (f s) := by
  have hsome := applyAll_last applied (fun s => some (f s)) setting
    (fun group s => by rw [hset]; cases setting group <;> rfl) groups s
  cases h : last setting groups <;> rw [h] at hsome <;> exact Option.some.inj hsome

/-- A field that what the groups give moves on, one after the other. -/
theorem applyAll_moved {υ : Type*} (applied : List String → σ → σ) (f : σ → τ) (move : τ → υ → τ)
    (given : List String → List υ) (hmove : ∀ group s, f (applied group s) = (given group).foldl move (f s))
    (groups : List (List String)) (s : σ) :
    f (applyAll applied groups s) = (groups.flatMap given).foldl move (f s) := by
  induction groups generalizing s with
  | nil => rfl
  | cons group groups ih =>
    change f (applyAll applied groups (applied group s)) = _
    rw [ih, hmove, List.flatMap_cons, List.foldl_append]

/-- A field to which a group may add something. -/
theorem applyAll_added (applied : List String → σ → σ) (f : σ → List τ)
    (added : List String → List τ) (hadd : ∀ group s, f (applied group s) = f s++added group)
    (groups : List (List String)) (s : σ) :
    f (applyAll applied groups s) = f s++groups.flatMap added := by
  induction groups generalizing s with
  | nil => exact (List.append_nil _).symm
  | cons group groups ih =>
    change f (applyAll applied groups (applied group s)) = _
    rw [ih, hadd, List.append_assoc, List.flatMap_cons]

/-- What every group keeps is kept by all of them. -/
theorem applyAll_kept (applied : List String → σ → σ) (P : σ → Prop)
    (hstep : ∀ group s, P s → P (applied group s)) (groups : List (List String)) (s : σ)
    (hs : P s) : P (applyAll applied groups s) := by
  induction groups generalizing s with
  | nil => exact hs
  | cons group groups ih => exact ih (applied group s) (hstep group s hs)

/-- The value that a name with its value gives. -/
def valueOf (names : List String) (read : String → Option τ) : List String → Option τ
  | [name,value] => if name ∈ names then read value else none
  | _ => none

def flagOf (names : List String) (t : τ) : List String → Option τ
  | [name] => if name ∈ names then some t else none
  | _ => none

theorem valueOf_read (names : List String) (read : String → Option τ)
    (group : List String) (t : τ) (h : valueOf names read group = some t) :
    ∃ value, read value = some t := by
  unfold valueOf at h
  split at h
  · next name value =>
    split_ifs at h
    exact ⟨value,h⟩
  · cases h

/-- A name with a value that can be read is a group. -/
theorem valued_complete (names : List String) (read : String → Option τ)
    (hentry : ∀ name ∈ names, ∃ missing set, entry name = .valued missing set ∧
      ∀ value t s, read value = some t → ∃ s', set value s = .ok s')
    (group : List String) (h : (valueOf names read group).isSome = true) :
    ∃ set, Group entry group set ∧ ∀ s, ∃ s', set s = .ok s' := by
  obtain ⟨t,ht⟩ := Option.isSome_iff_exists.mp h
  unfold valueOf at ht
  split at ht
  · next name value =>
    split_ifs at ht with hn
    obtain ⟨missing,set,he,hset⟩ := hentry name hn
    exact ⟨_,.valued name value missing set he,fun s => hset value t s ht⟩
  · cases ht

theorem flag_complete (names : List String) (t : τ)
    (hentry : ∀ name ∈ names, ∃ set, entry name = .flag set)
    (group : List String) (h : (flagOf names t group).isSome = true) :
    ∃ set, Group entry group set ∧ ∀ s, ∃ s', set s = .ok s' := by
  unfold flagOf at h
  split at h
  · next name =>
    split_ifs at h with hn
    · obtain ⟨set,he⟩ := hentry name hn
      exact ⟨_,.flag name set he,fun s => ⟨_,rfl⟩⟩
    · cases h
  · cases h

end RlStatsApi.OptionLoop
