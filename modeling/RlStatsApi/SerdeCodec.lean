import RlStatsApi.JsonValue

/-!
# Derived codecs between values and typed records

A codec reads a type from a value and writes it back, as derived
implementations do. A field selects a member by its key; an absent member
takes the default, when there is one. A record is a list of fields. It reads
either from an object whose other members are collected, or, without such a
map, from an object or from a sequence. What is written after a successful
read is read back as the same datum.
-/

set_option autoImplicit false

namespace RlStatsApi.SerdeCodec
open RlStatsApi.JsonValue RlStatsApi.SortedAssoc

structure Codec (α : Type) where
  de : Value → Option α
  ser : α → Value

structure FieldCodec (α : Type) where
  key : String
  codec : Codec α
  /-- The value of an absent member; none for a required one. -/
  absent : Option α

structure Record (α : Type) where
  keys : List String
  read : Members → Option α
  readSeq : List Value → Option (α × List Value)
  write : α → Members

variable {α β : Type}

namespace Codec

def string : Codec String := ⟨Value.asStr, .string⟩

def bool : Codec Bool := ⟨Value.asBool, .bool⟩

def i64 : Codec I64 := ⟨Value.asI64, Value.ofI64⟩

def f64 : Codec F64 := ⟨Value.asF64, Value.ofF64⟩

/-- Null is the absent datum. -/
def option (c : Codec α) : Codec (Option α) where
  de
    | .null => some none
    | v => (c.de v).map some
  ser
    | none => .null
    | some a => c.ser a

def vec (c : Codec α) : Codec (List α) where
  de
    | .array xs => xs.mapM c.de
    | _ => none
  ser as := .array (as.map c.ser)

def via (c : Codec α) (make : α → β) (fields : β → α) : Codec β where
  de v := (c.de v).map make
  ser b := c.ser (fields b)

end Codec

/-- A field with a default for the absent member. -/
def FieldCodec.defaulted (key : String) (codec : Codec α) (default : α) : FieldCodec α :=
  ⟨key, codec, some default⟩

def FieldCodec.required (key : String) (codec : Codec α) : FieldCodec α := ⟨key, codec, none⟩

def FieldCodec.read (f : FieldCodec α) (m : Members) : Option α :=
  match m.lookup f.key with
  | none => f.absent
  | some v => f.codec.de v

def FieldCodec.readSeq (f : FieldCodec α) : List Value → Option (α × List Value)
  | [] => f.absent.map (fun a => (a,[]))
  | v::vs => (f.codec.de v).map (fun a => (a,vs))

namespace Record

def nil : Record Unit := ⟨[], fun _ => some (), fun vs => some ((),vs), fun _ => []⟩

def cons (f : FieldCodec α) (r : Record β) : Record (α × β) where
  keys := f.key::r.keys
  read m := (f.read m).bind (fun a => (r.read m).map (fun b => (a,b)))
  readSeq vs := (f.readSeq vs).bind (fun p => (r.readSeq p.2).map (fun q => ((p.1,q.1),q.2)))
  write p := (f.key,f.codec.ser p.1)::r.write p.2

/-- A record with a map of the members that no field claims. -/
def flattened (r : Record α) : Codec (α × Members) where
  de
    | .object m => (r.read m).map (fun a => (a,without r.keys m))
    | _ => none
  ser p := .ofMembers (r.write p.1++p.2)

/-- A record without such a map: other members are ignored, and a sequence
is read by position and must not be longer than the fields. -/
def plain (r : Record α) : Codec α where
  de
    | .object m => r.read m
    | .array vs => (r.readSeq vs).bind (fun p => if p.2 = [] then some p.1 else none)
    | _ => none
  ser a := .ofMembers (r.write a)

end Record

/-! ## Fields of a record that was read -/

@[simp] theorem Record.cons_read (f : FieldCodec α) (r : Record β) (m : Members) (p : α × β) :
    (Record.cons f r).read m = some p ↔ f.read m = some p.1 ∧ r.read m = some p.2 := by
  constructor
  · intro h
    obtain ⟨a,ha,h⟩ := Option.bind_eq_some_iff.mp h
    obtain ⟨b,hb,rfl⟩ := Option.map_eq_some_iff.mp h
    exact ⟨ha,hb⟩
  · intro h
    simp [Record.cons, h.1, h.2]

theorem Record.flattened_read (r : Record α) (make : α × Members → β) (fields : β → α × Members)
    (hmf : ∀ a, fields (make a) = a) (v : Value) (b : β)
    (h : (r.flattened.via make fields).de v = some b) :
    ∃ m, v = .object m ∧ r.read m = some (fields b).1 ∧ (fields b).2 = without r.keys m := by
  obtain ⟨p,hp,rfl⟩ := Option.map_eq_some_iff.mp h
  rw [hmf]
  cases v with
  | object m =>
    obtain ⟨a,ha,rfl⟩ := Option.map_eq_some_iff.mp hp
    exact ⟨m,rfl,ha,rfl⟩
  | _ => cases hp

/-! ## What is written is read back -/

namespace Codec

def RoundTrips (c : Codec α) : Prop :=
  ∀ v a, v.Canonical → c.de v = some a → c.de (c.ser a) = some a

def NeverNull (c : Codec α) : Prop :=
  ∀ v a, v.Canonical → c.de v = some a → c.ser a ≠ .null

@[simp] theorem string_roundTrips : string.RoundTrips := fun _ _ _ _ => rfl

@[simp] theorem bool_roundTrips : bool.RoundTrips := fun _ _ _ _ => rfl

@[simp] theorem i64_roundTrips : i64.RoundTrips := fun _ a _ _ => Number.asI64_ofI64 a

theorem f64_finite (v : Value) (x : F64) (h : f64.de v = some x) : x.isFinite = true := by
  cases v with
  | number n =>
    cases h
    exact n.asF64_isFinite
  | _ => cases h

@[simp] theorem f64_roundTrips : f64.RoundTrips := by
  intro v x _ h
  have hx := f64_finite v x h
  change (Value.ofF64 x).asF64 = some x
  rw [Value.ofF64_finite x hx]
  rfl

@[simp] theorem string_neverNull : string.NeverNull := by
  rintro v a _ _ ⟨⟩

@[simp] theorem f64_neverNull : f64.NeverNull := by
  intro v x _ h
  have hx := f64_finite v x h
  change Value.ofF64 x ≠ .null
  rw [Value.ofF64_finite x hx]
  exact fun h => by cases h

@[simp] theorem bool_neverNull : bool.NeverNull := by
  rintro v a _ _ ⟨⟩

@[simp] theorem i64_neverNull : i64.NeverNull := by
  rintro v a _ _ ⟨⟩

@[simp] theorem vec_neverNull (c : Codec α) : (vec c).NeverNull := by
  rintro v a _ _ ⟨⟩

theorem option_some (c : Codec α) (v : Value) (hv : v ≠ .null) :
    (option c).de v = (c.de v).map some := by
  cases v with
  | null => exact absurd rfl hv
  | _ => rfl

@[simp] theorem option_roundTrips (c : Codec α) (hc : c.RoundTrips) (hn : c.NeverNull) :
    (option c).RoundTrips := by
  intro v a hv h
  by_cases hnull : v = .null
  · subst hnull
    cases h
    rfl
  · rw [option_some c v hnull, Option.map_eq_some_iff] at h
    obtain ⟨b,hb,rfl⟩ := h
    change (option c).de (c.ser b) = _
    rw [option_some c _ (hn v b hv hb), hc v b hv hb]
    rfl

theorem vec_roundTrips (c : Codec α) (hc : c.RoundTrips) : (vec c).RoundTrips := by
  intro v as hv h
  cases v with
  | array xs =>
    have hx := hv.items
    change xs.mapM c.de = some as at h
    change (as.map c.ser).mapM c.de = some as
    clear hv
    induction xs generalizing as with
    | nil =>
      cases h
      rfl
    | cons x xs ih =>
      simp only [List.mapM_cons, Option.bind_eq_bind, Option.bind_eq_some_iff] at h
      obtain ⟨a,ha,bs,hbs,hab⟩ := h
      cases hab
      have hr := ih bs (fun y hy => hx y (by simp [hy])) hbs
      have hh := hc x a (hx x (by simp)) ha
      simp [List.mapM_cons, hh, hr]
  | _ => cases h

@[simp] theorem vec_roundTrips_iff (c : Codec α) : (vec c).RoundTrips ↔ c.RoundTrips := by
  constructor
  · intro h v a hv ha
    have hs : (vec c).de (.array [v]) = some [a] := by simp [vec, ha]
    have hr := h _ _ (.array _ (by simpa using hv)) hs
    simpa [vec, Option.bind_eq_some_iff] using hr
  · exact vec_roundTrips c

theorem via_roundTrips (c : Codec α) (make : α → β) (fields : β → α)
    (hmf : ∀ a, fields (make a) = a) (hc : c.RoundTrips) : (c.via make fields).RoundTrips := by
  intro v b hv h
  obtain ⟨a,ha,rfl⟩ := Option.map_eq_some_iff.mp h
  change (c.de (c.ser (fields (make a)))).map make = _
  rw [hmf, hc v a hv ha]
  rfl

/-! Defaults of the standard codecs are read back too. -/

@[simp] theorem string_written (s : String) : string.de (string.ser s) = some s := rfl

@[simp] theorem bool_written (b : Bool) : bool.de (bool.ser b) = some b := rfl

@[simp] theorem i64_written (i : I64) : i64.de (i64.ser i) = some i := Number.asI64_ofI64 i

@[simp] theorem f64_written_zero :
    f64.de (f64.ser (BinaryFloat.zero _)) = some (BinaryFloat.zero _) := rfl

@[simp] theorem option_written_none (c : Codec α) :
    (option c).de ((option c).ser none) = some none := rfl

@[simp] theorem vec_written_nil (c : Codec α) : (vec c).de ((vec c).ser []) = some [] := rfl

end Codec

/-- The field's member survives, and so does its default. -/
structure FieldCodec.Lawful (f : FieldCodec α) : Prop where
  roundTrips : f.codec.RoundTrips
  absent : ∀ a, f.absent = some a → f.codec.de (f.codec.ser a) = some a

/-- Any object that holds what was written for a datum reads as that datum. -/
structure Record.Lawful (r : Record α) : Prop where
  keys : ∀ a, (r.write a).map Prod.fst = r.keys
  nodup : r.keys.Nodup
  read : ∀ m a, (Value.object m).Canonical → r.read m = some a →
    ∀ n : Members, (∀ p ∈ r.write a, n.lookup p.1 = some p.2) → r.read n = some a
  readSeq : ∀ vs a rest, (∀ v ∈ vs, v.Canonical) → r.readSeq vs = some (a,rest) →
    ∀ n : Members, (∀ p ∈ r.write a, n.lookup p.1 = some p.2) → r.read n = some a

theorem FieldCodec.read_written (f : FieldCodec α) (n : Members) (a : α)
    (hn : n.lookup f.key = some (f.codec.ser a)) (hd : f.codec.de (f.codec.ser a) = some a) :
    f.read n = some a := by
  rw [FieldCodec.read, hn]
  exact hd

theorem FieldCodec.Lawful.reads (f : FieldCodec α) (hf : f.Lawful) (m : Members) (a : α)
    (hm : (Value.object m).Canonical) (h : f.read m = some a) :
    f.codec.de (f.codec.ser a) = some a := by
  unfold FieldCodec.read at h
  split at h
  · exact hf.absent a h
  · next v hv => exact hf.roundTrips v a (hm.member f.key v hv) h

theorem FieldCodec.Lawful.readsSeq (f : FieldCodec α) (hf : f.Lawful) (vs : List Value) (a : α)
    (rest : List Value) (hv : ∀ v ∈ vs, v.Canonical) (h : f.readSeq vs = some (a,rest)) :
    f.codec.de (f.codec.ser a) = some a ∧ ∀ v ∈ rest, v.Canonical := by
  cases vs with
  | nil =>
    obtain ⟨b,hb,he⟩ := Option.map_eq_some_iff.mp h
    cases he
    exact ⟨hf.absent a hb,by simp⟩
  | cons v vs =>
    obtain ⟨b,hb,he⟩ := Option.map_eq_some_iff.mp h
    cases he
    exact ⟨hf.roundTrips v a (hv v (by simp)) hb,fun w hw => hv w (by simp [hw])⟩

@[simp] theorem FieldCodec.defaulted_lawful (key : String) (c : Codec α) (a : α) :
    (FieldCodec.defaulted key c a).Lawful ↔ c.RoundTrips ∧ c.de (c.ser a) = some a :=
  ⟨fun h => ⟨h.roundTrips,h.absent a rfl⟩,fun h => ⟨h.1,fun _ hb => Option.some.inj hb ▸ h.2⟩⟩

@[simp] theorem FieldCodec.required_lawful (key : String) (c : Codec α) :
    (FieldCodec.required key c).Lawful ↔ c.RoundTrips :=
  ⟨fun h => h.roundTrips,fun h => ⟨h,fun _ hb => by cases hb⟩⟩

@[simp] theorem FieldCodec.defaulted_key (key : String) (c : Codec α) (a : α) :
    (FieldCodec.defaulted key c a).key = key := rfl

@[simp] theorem FieldCodec.required_key (key : String) (c : Codec α) :
    (FieldCodec.required key c).key = key := rfl

@[simp] theorem FieldCodec.defaulted_codec (key : String) (c : Codec α) (a : α) :
    (FieldCodec.defaulted key c a).codec = c := rfl

@[simp] theorem FieldCodec.required_codec (key : String) (c : Codec α) :
    (FieldCodec.required key c).codec = c := rfl

@[simp] theorem Record.nil_keys : Record.nil.keys = [] := rfl

@[simp] theorem Record.cons_keys (f : FieldCodec α) (r : Record β) :
    (Record.cons f r).keys = f.key::r.keys := rfl

@[simp] theorem Record.nil_lawful : Record.nil.Lawful where
  keys _ := rfl
  nodup := List.nodup_nil
  read _ _ _ _ _ _ := rfl
  readSeq _ _ _ _ _ _ _ := rfl

@[simp] theorem Record.cons_lawful (f : FieldCodec α) (r : Record β) (hf : f.Lawful) (hr : r.Lawful)
    (hk : f.key ∉ r.keys) : (Record.cons f r).Lawful where
  keys p := by simp [Record.cons, hr.keys p.2]
  nodup := List.nodup_cons.mpr ⟨hk,hr.nodup⟩
  read := by
    intro m p hm h n hn
    obtain ⟨a,ha,h⟩ := Option.bind_eq_some_iff.mp h
    obtain ⟨b,hb,rfl⟩ := Option.map_eq_some_iff.mp h
    have h1 : f.read n = some a :=
      f.read_written n a (hn (f.key,_) (by simp [Record.cons])) (hf.reads f m a hm ha)
    have h2 : r.read n = some b :=
      hr.read m b hm hb n (fun p hp => hn p (by simp [Record.cons, hp]))
    simp [Record.cons, h1, h2]
  readSeq := by
    intro vs p rest hv h n hn
    obtain ⟨⟨a,rest1⟩,ha,h⟩ := Option.bind_eq_some_iff.mp h
    obtain ⟨⟨b,rest2⟩,hb,he⟩ := Option.map_eq_some_iff.mp h
    cases he
    obtain ⟨hd,hv1⟩ := hf.readsSeq f vs a rest1 hv ha
    have h1 : f.read n = some a := f.read_written n a (hn (f.key,_) (by simp [Record.cons])) hd
    have h2 : r.read n = some b :=
      hr.readSeq rest1 b _ hv1 hb n (fun p hp => hn p (by simp [Record.cons, hp]))
    simp [Record.cons, h1, h2]

theorem lookup_written (entries extra : Members) (hn : ((entries++extra).map Prod.fst).Nodup)
    (x : String) : (insertAll (entries++extra) []).lookup x =
      (entries.lookup x).or (extra.lookup x) := by
  rw [lookup_insertAll, lookup_reverse _ hn, List.lookup_append]
  simp

/-- Fields and collected members share no key, so nothing is overwritten. -/
theorem written_nodup (r : Record α) (hr : r.Lawful) (a : α) (m : Members) (hm : Sorted m) :
    ((r.write a++without r.keys m).map Prod.fst).Nodup := by
  rw [List.map_append, hr.keys a]
  refine List.Nodup.append hr.nodup (nodup_keys _ (sorted_without _ _ hm)) ?_
  intro x hx hy
  obtain ⟨p,hp,rfl⟩ := List.mem_map.mp hy
  simp [without] at hp
  exact hp.2 hx

@[simp] theorem Record.flattened_roundTrips (r : Record α) (hr : r.Lawful) :
    r.flattened.RoundTrips := by
  intro v p hv h
  cases v with
  | object m =>
    obtain ⟨a,ha,rfl⟩ := Option.map_eq_some_iff.mp h
    have hnd := written_nodup r hr a m hv.sorted
    have hl := lookup_written (r.write a) (without r.keys m) hnd
    rw [List.map_append] at hnd
    have hread : r.read (insertAll (r.write a++without r.keys m) []) = some a := by
      apply hr.read m a hv ha
      intro p hp
      rw [hl, lookup_of_mem _ hnd.of_append_left p hp]
      rfl
    have hextra : without r.keys (insertAll (r.write a++without r.keys m) []) =
        without r.keys m := by
      apply sorted_ext
      · exact sorted_without _ _ (sorted_insertAll _ _ List.Pairwise.nil)
      · exact sorted_without _ _ hv.sorted
      · intro x
        rw [lookup_without, hl, lookup_without]
        by_cases hx : x ∈ r.keys
        · simp [hx]
        · rw [lookup_none_of_not_key (r.write a) x (by rw [hr.keys a]; exact hx)]
          simp [hx]
    change (r.read _).map _ = _
    rw [hread, Option.map_some, hextra]
  | _ => cases h

@[simp] theorem Record.plain_roundTrips (r : Record α) (hr : r.Lawful) : r.plain.RoundTrips := by
  intro v a hv h
  have hw : ∀ p ∈ r.write a, (insertAll (r.write a) []).lookup p.1 = some p.2 := by
    have hn : ((r.write a).map Prod.fst).Nodup := by rw [hr.keys a]; exact hr.nodup
    intro p hp
    rw [lookup_insertAll, lookup_reverse _ hn, lookup_of_mem _ hn p hp]
    rfl
  change r.read (insertAll (r.write a) []) = some a
  cases v with
  | object m => exact hr.read m a hv h _ hw
  | array vs =>
    obtain ⟨⟨b,rest⟩,hb,h⟩ := Option.bind_eq_some_iff.mp h
    simp only at h
    split_ifs at h
    cases h
    exact hr.readSeq vs a rest hv.items hb _ hw
  | _ => cases h

theorem Codec.via_neverNull (c : Codec α) (make : α → β) (fields : β → α)
    (hc : ∀ a, c.ser a ≠ .null) : (c.via make fields).NeverNull :=
  fun _ b _ _ => hc (fields b)

end RlStatsApi.SerdeCodec
