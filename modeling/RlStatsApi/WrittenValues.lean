import RlStatsApi.SerdeCodec

/-!
# Values that codecs write

What is written for a datum that was read from a canonical value is canonical
again: members keep their order and no key is repeated at any level.
-/

set_option autoImplicit false

namespace RlStatsApi.WrittenValues
open RlStatsApi.JsonValue RlStatsApi.SerdeCodec

variable {α β : Type}

/-! ## Codecs -/

def Tidy (c : Codec α) : Prop := ∀ v a, v.Canonical → c.de v = some a → (c.ser a).Canonical

structure FieldTidy (f : FieldCodec α) : Prop where
  codec : Tidy f.codec
  absent : ∀ a, f.absent = some a → (f.codec.ser a).Canonical

structure RecordTidy (r : Record α) : Prop where
  read : ∀ m a, (Value.object m).Canonical → r.read m = some a →
    ∀ p ∈ r.write a, p.2.Canonical
  readSeq : ∀ vs a rest, (∀ v ∈ vs, v.Canonical) → r.readSeq vs = some (a,rest) →
    ∀ p ∈ r.write a, p.2.Canonical

@[simp] theorem string_tidy : Tidy Codec.string := fun _ a _ _ => .string a

@[simp] theorem bool_tidy : Tidy Codec.bool := fun _ a _ _ => .bool a

@[simp] theorem i64_tidy : Tidy Codec.i64 := fun _ _ _ _ => .number _

@[simp] theorem f64_tidy : Tidy Codec.f64 := by
  intro v x _ h
  change (Value.ofF64 x).Canonical
  rw [Value.ofF64_finite x (Codec.f64_finite v x h)]
  exact .number _

@[simp] theorem option_tidy (c : Codec α) (hc : Tidy c) : Tidy (.option c) := by
  intro v a hv h
  by_cases hnull : v = .null
  · subst hnull
    cases h
    exact .null
  · rw [Codec.option_some c v hnull, Option.map_eq_some_iff] at h
    obtain ⟨b,hb,rfl⟩ := h
    exact hc v b hv hb

@[simp] theorem vec_tidy (c : Codec α) (hc : Tidy c) : Tidy (.vec c) := by
  intro v as hv h
  cases v with
  | array xs =>
    have hx := hv.items
    change xs.mapM c.de = some as at h
    refine .array _ ?_
    clear hv
    induction xs generalizing as with
    | nil =>
      cases h
      simp
    | cons x xs ih =>
      simp only [List.mapM_cons, Option.bind_eq_bind, Option.bind_eq_some_iff] at h
      obtain ⟨a,ha,bs,hbs,hab⟩ := h
      cases hab
      rw [List.map_cons, List.forall_mem_cons]
      exact ⟨hc x a (hx x (by simp)) ha,ih bs (fun y hy => hx y (by simp [hy])) hbs⟩
  | _ => cases h

theorem via_tidy (c : Codec α) (make : α → β) (fields : β → α) (hmf : ∀ a, fields (make a) = a)
    (hc : Tidy c) : Tidy (c.via make fields) := by
  intro v b hv h
  obtain ⟨a,ha,rfl⟩ := Option.map_eq_some_iff.mp h
  change (c.ser (fields (make a))).Canonical
  rw [hmf]
  exact hc v a hv ha

@[simp] theorem required_tidy (key : String) (c : Codec α) :
    FieldTidy (.required key c) ↔ Tidy c :=
  ⟨fun h => h.codec,fun hc => ⟨hc,fun _ h => by cases h⟩⟩

@[simp] theorem defaulted_tidy (key : String) (c : Codec α) (a : α) :
    FieldTidy (.defaulted key c a) ↔ Tidy c ∧ (c.ser a).Canonical :=
  ⟨fun h => ⟨h.codec,h.absent a rfl⟩,fun h => ⟨h.1,fun _ hb => Option.some.inj hb ▸ h.2⟩⟩

@[simp] theorem string_written_canonical (s : String) : (Codec.string.ser s).Canonical := .string s

@[simp] theorem bool_written_canonical (b : Bool) : (Codec.bool.ser b).Canonical := .bool b

@[simp] theorem i64_written_canonical (i : I64) : (Codec.i64.ser i).Canonical := .number _

@[simp] theorem f64_written_canonical :
    (Codec.f64.ser (BinaryFloat.zero _)).Canonical := .number _

@[simp] theorem none_written_canonical (c : Codec α) : ((Codec.option c).ser none).Canonical :=
  .null

@[simp] theorem nil_written_canonical (c : Codec α) : ((Codec.vec c).ser []).Canonical :=
  .array [] (by simp)

theorem field_read (f : FieldCodec α) (hf : FieldTidy f) (m : Members) (a : α)
    (hm : (Value.object m).Canonical) (h : f.read m = some a) : (f.codec.ser a).Canonical := by
  unfold FieldCodec.read at h
  split at h
  · exact hf.absent a h
  · next v hv => exact hf.codec v a (hm.member f.key v hv) h

theorem field_readSeq (f : FieldCodec α) (hf : FieldTidy f) (vs : List Value) (a : α)
    (rest : List Value) (hv : ∀ v ∈ vs, v.Canonical) (h : f.readSeq vs = some (a,rest)) :
    (f.codec.ser a).Canonical ∧ ∀ v ∈ rest, v.Canonical := by
  cases vs with
  | nil =>
    obtain ⟨b,hb,he⟩ := Option.map_eq_some_iff.mp h
    cases he
    exact ⟨hf.absent a hb,by simp⟩
  | cons v vs =>
    obtain ⟨b,hb,he⟩ := Option.map_eq_some_iff.mp h
    cases he
    exact ⟨hf.codec v a (hv v (by simp)) hb,fun w hw => hv w (by simp [hw])⟩

theorem nil_tidy : RecordTidy Record.nil where
  read _ _ _ _ _ hp := by cases hp
  readSeq _ _ _ _ _ _ hp := by cases hp

theorem cons_tidy (f : FieldCodec α) (r : Record β) (hf : FieldTidy f) (hr : RecordTidy r) :
    RecordTidy (Record.cons f r) where
  read := by
    intro m p hm h
    obtain ⟨ha,hb⟩ := (Record.cons_read f r m p).mp h
    change ∀ q ∈ (f.key,f.codec.ser p.1)::r.write p.2, q.2.Canonical
    rw [List.forall_mem_cons]
    exact ⟨field_read f hf m p.1 hm ha,hr.read m p.2 hm hb⟩
  readSeq := by
    intro vs p rest hv h
    obtain ⟨⟨a,rest1⟩,ha,h⟩ := Option.bind_eq_some_iff.mp h
    obtain ⟨⟨b,rest2⟩,hb,he⟩ := Option.map_eq_some_iff.mp h
    cases he
    obtain ⟨hd,hv1⟩ := field_readSeq f hf vs a rest1 hv ha
    change ∀ q ∈ (f.key,f.codec.ser a)::r.write b, q.2.Canonical
    rw [List.forall_mem_cons]
    exact ⟨hd,hr.readSeq rest1 b _ hv1 hb⟩

theorem flattened_tidy (r : Record α) (hr : RecordTidy r) : Tidy r.flattened := by
  intro v p hv h
  cases v with
  | object m =>
    obtain ⟨a,ha,rfl⟩ := Option.map_eq_some_iff.mp h
    refine Value.canonical_ofMembers _ fun q hq => ?_
    rcases List.mem_append.mp hq with hq | hq
    · exact hr.read m a hv ha q hq
    · cases hv with
      | object _ _ hall => exact hall q (List.mem_of_mem_filter hq)
  | _ => cases h

theorem plain_tidy (r : Record α) (hr : RecordTidy r) : Tidy r.plain := by
  intro v a hv h
  refine Value.canonical_ofMembers _ ?_
  cases v with
  | object m => exact hr.read m a hv h
  | array vs =>
    obtain ⟨⟨b,rest⟩,hb,h⟩ := Option.bind_eq_some_iff.mp h
    simp only at h
    split_ifs at h
    cases h
    exact hr.readSeq vs a rest hv.items hb
  | _ => cases h

end RlStatsApi.WrittenValues
