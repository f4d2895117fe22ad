import RlStatsApi.EventValues

/-!
# Player quantities under their names

The own field of a quantity takes values of its type only, and any other
value under its key fails the whole read. The other names are collected
members, read by the converter.
-/

set_option autoImplicit false

namespace RlStatsApi.PlayerQuantities
open RlStatsApi.JsonValue RlStatsApi.SortedAssoc RlStatsApi.SerdeCodec RlStatsApi.EventData
open RlStatsApi.EventValues

/-! ## The members that a record reads -/

section Reads

variable {α β : Type}

def AgreeOn (keys : List String) (m n : Members) : Prop := ∀ k ∈ keys, m.lookup k = n.lookup k

theorem field_congr (f : FieldCodec α) (m n : Members) (h : m.lookup f.key = n.lookup f.key) :
    f.read m = f.read n := by
  rw [FieldCodec.read, FieldCodec.read, h]

/-- A record looks at the members of its keys only. -/
def Local (r : Record α) : Prop := ∀ m n, AgreeOn r.keys m n → r.read m = r.read n

theorem nil_local : Local Record.nil := fun _ _ _ => rfl

theorem cons_local (f : FieldCodec α) (r : Record β) (hr : Local r) : Local (Record.cons f r) := by
  intro m n h
  rw [Record.cons_keys] at h
  have hf := field_congr f m n (h f.key (by simp))
  have ht := hr m n (fun k hk => h k (by simp [hk]))
  change (f.read m).bind _ = (f.read n).bind _
  rw [hf, ht]

def Reads (r : Record α) (m : Members) : Prop := ∃ a, r.read m = some a

theorem flattened_reads_iff (r : Record α) (make : α × Members → β) (fields : β → α × Members)
    (m : Members) : (∃ b, (r.flattened.via make fields).de (.object m) = some b) ↔ Reads r m := by
  simp [Codec.via, Record.flattened, Reads]

theorem cons_reads (f : FieldCodec α) (r : Record β) (m : Members) :
    Reads (Record.cons f r) m ↔ (∃ a, f.read m = some a) ∧ Reads r m := by
  constructor
  · rintro ⟨p,hp⟩
    obtain ⟨ha,hb⟩ := (Record.cons_read f r m p).mp hp
    exact ⟨⟨p.1,ha⟩,p.2,hb⟩
  · rintro ⟨⟨a,ha⟩,b,hb⟩
    exact ⟨(a,b),(Record.cons_read f r m (a,b)).mpr ⟨ha,hb⟩⟩

/-- Once the other members are read, the record is read if `k` passes `ok`. -/
def GatedBy (r : Record α) (k : String) (ok : Members → Prop) : Prop :=
  ∀ m n, (∀ x ∈ r.keys, x ≠ k → m.lookup x = n.lookup x) → Reads r n → (Reads r m ↔ ok m)

theorem gated_head (f : FieldCodec α) (r : Record β) (hr : Local r) (hk : f.key ∉ r.keys) :
    GatedBy (Record.cons f r) f.key (fun m => ∃ a, f.read m = some a) := by
  intro m n h hn
  rw [cons_reads] at hn ⊢
  have hm : Reads r m := by
    obtain ⟨b,hb⟩ := hn.2
    refine ⟨b,(hr m n ?_).trans hb⟩
    intro x hx
    refine h x (by simp [hx]) ?_
    rintro rfl
    exact hk hx
  exact and_iff_left hm

theorem gated_tail (f : FieldCodec α) (r : Record β) (k : String) (ok : Members → Prop)
    (hk : f.key ≠ k) (hr : GatedBy r k ok) : GatedBy (Record.cons f r) k ok := by
  intro m n h hn
  rw [cons_reads] at hn ⊢
  have hf := field_congr f m n (h f.key (by simp) hk)
  rw [hf, and_iff_right hn.1]
  exact hr m n (fun x hx => h x (by simp [hx])) hn.2

end Reads

/-! ## Quantities -/

/-- A quantity: its own field with the values it takes, and the names and the
converter of `effective`. -/
structure Quantity (α : Type) where
  canonical : String
  aliases : List String
  codec : Codec α
  own : Value → Bool
  convert : Value → Option α
  field : UpdateStatePlayer → Option α
  effective : UpdateStatePlayer → Option α

namespace Quantity

variable {α : Type}

def ownField (q : Quantity α) : FieldCodec (Option α) :=
  .defaulted q.canonical (.option q.codec) none

def recognised (q : Quantity α) : List String := q.canonical::q.aliases

/-- `own` are the values that the field takes, and they convert to the same. -/
structure Fits (codec : Codec α) (own : Value → Bool) (convert : Value → Option α) : Prop where
  own : ∀ v, own v = true ↔ ∃ x, codec.de v = some x
  converts : ∀ v x, codec.de v = some x → convert v = some x
  null : convert .null = none

/-- How a quantity lies in the player's record. -/
structure InRecord (q : Quantity α) : Prop where
  fits : Fits q.codec q.own q.convert
  gated : GatedBy UpdateStatePlayer.record q.canonical (fun m => ∃ a, q.ownField.read m = some a)
  field : ∀ m p, UpdateStatePlayer.codec.de (.object m) = some p →
    q.ownField.read m = some (q.field p)
  aliases : ∀ k ∈ q.aliases, k ∉ UpdateStatePlayer.record.keys
  effective : ∀ p, ∃ keys nested, q.aliases ⊆ keys ∧ keys ⊆ q.recognised ∧
    q.effective p = (q.field p).or ((firstValue q.convert p.extra keys).or nested)

end Quantity

def speedQuantity : Quantity F64 where
  canonical := "Speed"
  aliases := ["speed","CarSpeed","carSpeed","car_speed","Velocity","velocity","Car.Speed","car.speed"]
  codec := .f64
  own v := v.asF64.isSome
  convert := valueAsF64
  field := UpdateStatePlayer.speed
  effective := effectiveSpeed

def boostQuantity : Quantity I64 where
  canonical := "Boost"
  aliases := ["boost","BoostAmount","boostAmount","boost_amount","Car.Boost","car.boost"]
  codec := .i64
  own v := v.asI64.isSome
  convert := valueAsI64
  field := UpdateStatePlayer.boost
  effective := effectiveBoost

def boostingQuantity : Quantity Bool where
  canonical := "bBoosting"
  aliases := ["boosting","isBoosting"]
  codec := .bool
  own v := v.asBool.isSome
  convert := valueAsBool
  field := UpdateStatePlayer.bBoosting
  effective := effectiveBoosting

def supersonicQuantity : Quantity Bool where
  canonical := "bSupersonic"
  aliases := ["supersonic","isSupersonic"]
  codec := .bool
  own v := v.asBool.isSome
  convert := valueAsBool
  field := UpdateStatePlayer.bSupersonic
  effective := effectiveSupersonic

theorem player_local : Local UpdateStatePlayer.record := by
  repeat refine cons_local _ _ ?_
  exact nil_local

/-- The fields that were read, and the members that none of them claims. -/
theorem player_read (m : Members) (p : UpdateStatePlayer)
    (h : UpdateStatePlayer.codec.de (.object m) = some p) :
    p.extra = without UpdateStatePlayer.record.keys m := by
  obtain ⟨_,he,_,hx⟩ := Record.flattened_read _ _ _ (fun _ => rfl) (.object m) p h
  cases he
  exact hx

theorem player_reads_iff (m : Members) : (∃ p, UpdateStatePlayer.codec.de (.object m) = some p) ↔
    Reads UpdateStatePlayer.record m :=
  flattened_reads_iff _ _ _ m

theorem player_gates : (∀ q ∈ [boostingQuantity,supersonicQuantity], GatedBy
      UpdateStatePlayer.record q.canonical (fun m => ∃ a, q.ownField.read m = some a)) ∧
    GatedBy UpdateStatePlayer.record "Speed" (fun m => ∃ a, speedQuantity.ownField.read m = some a) ∧
    GatedBy UpdateStatePlayer.record "Boost" (fun m => ∃ a, boostQuantity.ownField.read m = some a) := by
  simp only [List.forall_mem_cons, List.not_mem_nil, false_implies, implies_true, and_true]
  refine ⟨⟨?_,?_⟩,?_,?_⟩
  all_goals
    repeat refine gated_tail _ _ _ _ (by decide) ?_
    refine gated_head _ _ ?_ (by decide)
    repeat refine cons_local _ _ ?_
    exact nil_local

theorem player_fields (m : Members) (p : UpdateStatePlayer)
    (h : UpdateStatePlayer.codec.de (.object m) = some p) :
    (∀ q ∈ [boostingQuantity,supersonicQuantity], q.ownField.read m = some (q.field p)) ∧
    speedQuantity.ownField.read m = some p.speed ∧ boostQuantity.ownField.read m = some p.boost := by
  obtain ⟨_,he,hm,_⟩ := Record.flattened_read _ _ _ (fun _ => rfl) (.object m) p h
  cases he
  simp only [UpdateStatePlayer.record, Record.cons_read] at hm
  obtain ⟨_,_,_,_,_,_,_,_,_,_,_,_,_,_,hspeed,hboost,hboosting,_,_,_,_,hsupersonic,_⟩ := hm
  simp only [List.forall_mem_cons, List.not_mem_nil, false_implies, implies_true, and_true]
  exact ⟨⟨hboosting,hsupersonic⟩,hspeed,hboost⟩

theorem f64_fits : Quantity.Fits .f64 (fun v => v.asF64.isSome) valueAsF64 where
  own v := by simp [Codec.f64, Option.isSome_iff_exists]
  converts v x h := by
    cases v with
    | number n => exact h
    | _ => cases h
  null := rfl

theorem i64_fits : Quantity.Fits .i64 (fun v => v.asI64.isSome) valueAsI64 where
  own v := by simp [Codec.i64, Option.isSome_iff_exists]
  converts v x h := by
    cases v with
    | number n =>
      change n.asI64 = some x at h
      simp [valueAsI64, h]
    | _ => cases h
  null := rfl

theorem bool_fits : Quantity.Fits .bool (fun v => v.asBool.isSome) valueAsBool where
  own v := by simp [Codec.bool, Option.isSome_iff_exists]
  converts v x h := by
    cases v with
    | bool b => exact h
    | _ => cases h
  null := rfl

theorem speed_inRecord : speedQuantity.InRecord where
  fits := f64_fits
  gated := player_gates.2.1
  field m p h := (player_fields m p h).2.1
  aliases := by decide
  effective p := ⟨_,_,by decide,by decide,rfl⟩

theorem boost_inRecord : boostQuantity.InRecord where
  fits := i64_fits
  gated := player_gates.2.2
  field m p h := (player_fields m p h).2.2
  aliases := by decide
  effective p := ⟨_,_,by decide,by decide,rfl⟩

theorem boosting_inRecord : boostingQuantity.InRecord where
  fits := bool_fits
  gated := player_gates.1 boostingQuantity (by simp)
  field m p h := (player_fields m p h).1 boostingQuantity (by simp)
  aliases := by decide
  effective p := ⟨_,_,by decide,by decide,rfl⟩

theorem supersonic_inRecord : supersonicQuantity.InRecord where
  fits := bool_fits
  gated := player_gates.1 supersonicQuantity (by simp)
  field m p h := (player_fields m p h).1 supersonicQuantity (by simp)
  aliases := by decide
  effective p := ⟨_,_,by decide,by decide,rfl⟩

/-! ## Reading a quantity -/

namespace Quantity

variable {α : Type} (q : Quantity α)

/-- An object that holds a value under one of the quantity's names and is a
player's without it is read unless the name is the quantity's own and the
value is not of its type. The effective quantity is then the value's. -/
def Decodes : Prop :=
  ∀ (m : Members) (key : String) (v : Value) (x : α), key ∈ q.recognised →
    m.lookup key = some v → (∀ k ∈ q.recognised, k ≠ key → m.lookup k = none) →
    q.convert v = some x →
    (∃ p, UpdateStatePlayer.codec.de (.object (without [key] m)) = some p) →
    ((∃ p, UpdateStatePlayer.codec.de (.object m) = some p) ↔
      (key = q.canonical → q.own v = true)) ∧
    ∀ p, UpdateStatePlayer.codec.de (.object m) = some p → q.effective p = some x

variable {q} (hq : q.InRecord) {m : Members} {key : String} {v : Value} {x : α}
variable (hkey : key ∈ q.recognised) (hv : m.lookup key = some v)
variable (hothers : ∀ k ∈ q.recognised, k ≠ key → m.lookup k = none)

theorem without_other (k : String) (hk : k ≠ key) : m.lookup k = (without [key] m).lookup k := by
  rw [lookup_without, if_neg (by simpa using hk)]

include hq in
theorem own_reads_iff (hvn : v ≠ .null) (hc : m.lookup q.canonical = some v) :
    (∃ a, q.ownField.read m = some a) ↔ q.own v = true := by
  rw [hq.fits.own, ownField, FieldCodec.read, FieldCodec.defaulted_key, hc]
  simp [FieldCodec.defaulted_codec, Codec.option_some _ v hvn]

include hq hkey hv in
theorem reads_iff (hx : q.convert v = some x)
    (hrest : Reads UpdateStatePlayer.record (without [key] m)) :
    Reads UpdateStatePlayer.record m ↔ (key = q.canonical → q.own v = true) := by
  by_cases hk : key = q.canonical
  · subst hk
    have hvn : v ≠ .null := by
      rintro rfl
      rw [hq.fits.null] at hx
      cases hx
    have hg := hq.gated m _ (fun k _ hne => without_other k hne) hrest
    simpa using hg.trans (own_reads_iff hq hvn hv)
  · have halias : key ∉ UpdateStatePlayer.record.keys :=
      hq.aliases key ((List.mem_cons.mp hkey).resolve_left hk)
    have hsame : UpdateStatePlayer.record.read m =
        UpdateStatePlayer.record.read (without [key] m) := by
      apply player_local
      intro k hm
      apply without_other
      rintro rfl
      exact halias hm
    rw [Reads, hsame]
    simp only [hk, false_implies, iff_true]
    exact hrest

include hq hothers in
theorem field_absent (hk : key ≠ q.canonical) (p : UpdateStatePlayer)
    (h : UpdateStatePlayer.codec.de (.object m) = some p) : q.field p = none := by
  have hf := hq.field m p h
  have hn := hothers q.canonical (by simp [recognised]) (Ne.symm hk)
  rw [ownField, FieldCodec.read, FieldCodec.defaulted_key, hn] at hf
  exact (Option.some.inj hf).symm

include hv hothers in
/-- Of the names that are tried only the one that is given is found. -/
theorem firstValue_sole (hx : q.convert v = some x) (keys known : List String) (hm : key ∈ keys)
    (hs : keys ⊆ q.recognised) (hc : key ∉ known) :
    firstValue q.convert (without known m) keys = some x := by
  have hone : ∀ k ∈ keys, k ≠ key → (without known m).lookup k = none := by
    intro k hk hne
    rw [lookup_without, hothers k (hs hk) hne, ite_self]
  have hfound : (without known m).lookup key = some v := by
    rw [lookup_without, if_neg hc, hv]
  clear hs
  induction keys with
  | nil => cases hm
  | cons k keys ih =>
    rw [firstValue, List.findSome?_cons]
    by_cases hk : k = key
    · rw [hk, hfound, Option.bind_some, hx]
    · rw [hone k (by simp) hk, Option.bind_none]
      exact ih ((List.mem_cons.mp hm).resolve_left (Ne.symm hk))
        (fun k' hk' => hone k' (by simp [hk']))

include hq hkey hv hothers in
theorem effective_eq (hx : q.convert v = some x) (p : UpdateStatePlayer)
    (h : UpdateStatePlayer.codec.de (.object m) = some p) : q.effective p = some x := by
  obtain ⟨keys,nested,hsub,hs,he⟩ := hq.effective p
  rw [he]
  by_cases hk : key = q.canonical
  · subst hk
    have hf := hq.field m p h
    have hvn : v ≠ .null := by
      rintro rfl
      rw [hq.fits.null] at hx
      cases hx
    rw [ownField, FieldCodec.read, FieldCodec.defaulted_key, hv] at hf
    change (Codec.option q.codec).de v = _ at hf
    rw [Codec.option_some _ v hvn, Option.map_eq_some_iff] at hf
    obtain ⟨y,hy,hfield⟩ := hf
    rw [hq.fits.converts v y hy] at hx
    rw [← hfield, Option.some_or, hx]
  · have halias : key ∈ q.aliases := (List.mem_cons.mp hkey).resolve_left hk
    rw [field_absent hq hothers hk p h, player_read m p h,
      firstValue_sole hv hothers hx keys _ (hsub halias) hs (hq.aliases key halias)]
    rfl

include hq in
theorem inRecord_decodes : q.Decodes := by
  intro m key v x hkey hv hothers hx hrest
  rw [player_reads_iff] at hrest ⊢
  exact ⟨reads_iff hq hkey hv hx hrest,effective_eq hq hkey hv hothers hx⟩

end Quantity

/-- Speed takes a number under its own name, boost a whole number in range
and each flag a truth value. Every other name takes what the converter does. -/
theorem quantities_decode : speedQuantity.Decodes ∧ boostQuantity.Decodes ∧
    boostingQuantity.Decodes ∧ supersonicQuantity.Decodes :=
  ⟨Quantity.inRecord_decodes speed_inRecord,Quantity.inRecord_decodes boost_inRecord,
    Quantity.inRecord_decodes boosting_inRecord,Quantity.inRecord_decodes supersonic_inRecord⟩

/-- The text 33 is a boost under another name. -/
theorem text_boost_read :
    (∃ p, UpdateStatePlayer.codec.de (.object [("boost",.string "33")]) = some p) ∧
    ∀ p, UpdateStatePlayer.codec.de (.object [("boost",.string "33")]) = some p →
      effectiveBoost p = some ⟨33,by decide,by decide⟩ := by
  have hothers : ∀ k ∈ boostQuantity.recognised, k ≠ "boost" →
      [("boost",Value.string "33")].lookup k = none := by
    intro k _ hk
    rw [List.lookup_cons, beq_false_of_ne hk]
    rfl
  obtain ⟨hreads,hboost⟩ := quantities_decode.2.1 [("boost",.string "33")] "boost" (.string "33")
    ⟨33,by decide,by decide⟩ (by decide) rfl hothers (by decide) ⟨_,rfl⟩
  exact ⟨hreads.mpr (by decide),hboost⟩

/-- The text 33 converts to a boost but not under the own name. -/
theorem canonical_text_rejected : valueAsI64 (.string "33") = some ⟨33,by decide,by decide⟩ ∧
    UpdateStatePlayer.codec.de (.object [("Boost",.string "33")]) = none ∧
    (∃ p, UpdateStatePlayer.codec.de (.object []) = some p) ∧
    ∃ p, UpdateStatePlayer.codec.de (.object [("boost",.string "33")]) = some p ∧
      effectiveBoost p = some ⟨33,by decide,by decide⟩ :=
  ⟨by decide,rfl,⟨_,rfl⟩,_,rfl,by decide⟩

end RlStatsApi.PlayerQuantities
