import RlStatsApi.JsonValue

/-!
# Shapes of JSON values

A shape says of which kind a value is and which members an object has: each
of them once, an optional one perhaps, and no others. It can be checked, it
tells a reader what to find, and one shape lies below another if whatever
fits the first fits the second.
-/

set_option autoImplicit false

namespace RlStatsApi.JsonShape
open RlStatsApi.JsonValue

inductive Shape where
  | null
  | flag
  | integer
  | number
  | text
  | either (a b : Shape)
  | optional (s : Shape)
  | tuple (items : List Shape)
  | record (fields : List (String × Shape))
  | keyed (field : String) (s : Shape)

namespace Shape

def allowsAbsent : Shape → Bool
  | .optional _ => true
  | _ => false

mutual

def fits : Shape → Value → Bool
  | .null, .null => true
  | .flag, .bool _ => true
  | .integer, .number n => n.asInteger.isSome
  | .number, .number _ => true
  | .text, .string _ => true
  | .either a b, v => fits a v || fits b v
  | .optional s, v => fits s v
  | .tuple items, .array xs => fitsItems items xs
  | .record fields, .object m =>
    m.all (fun p => decide (p.1 ∈ fields.map Prod.fst)) && fitsFields fields m
  | .keyed field s, .object m =>
    m.all (fun p => fits s p.2 && decide ((p.2.get field).bind Value.asStr = some p.1))
  | _, _ => false

def fitsItems : List Shape → List Value → Bool
  | [], [] => true
  | s::items, v::xs => fits s v && fitsItems items xs
  | _, _ => false

def fitsFields : List (String × Shape) → Members → Bool
  | [], _ => true
  | (k,s)::fields, m =>
    (match m.lookup k with
      | some v => fits s v
      | none => allowsAbsent s) && fitsFields fields m

end

/-! ## Records -/

/-- A member that is there fits, and one that is missing may be. -/
def FieldFits (m : Members) (f : String × Shape) : Prop :=
  (∀ v, m.lookup f.1 = some v → fits f.2 v = true) ∧
  (m.lookup f.1 = none → allowsAbsent f.2 = true)

theorem fitsFields_iff (fields : List (String × Shape)) (m : Members) :
    fitsFields fields m = true ↔ ∀ f ∈ fields, FieldFits m f := by
  induction fields with
  | nil => simp [fitsFields]
  | cons f fields ih =>
    obtain ⟨k,s⟩ := f
    rw [fitsFields, Bool.and_eq_true, ih, List.forall_mem_cons]
    refine and_congr ?_ Iff.rfl
    cases hl : m.lookup k with
    | none => simp [FieldFits, hl]
    | some v => simp [FieldFits, hl]

theorem fits_record_iff (fields : List (String × Shape)) (v : Value) :
    fits (.record fields) v = true ↔ ∃ m, v = .object m ∧
      (∀ p ∈ m, p.1 ∈ fields.map Prod.fst) ∧ ∀ f ∈ fields, FieldFits m f := by
  constructor
  · intro h
    cases v with
    | object m =>
      rw [fits, Bool.and_eq_true, fitsFields_iff, List.all_eq_true] at h
      exact ⟨m,rfl,fun p hp => of_decide_eq_true (h.1 p hp),h.2⟩
    | _ => simp [fits] at h
  · rintro ⟨m,rfl,hkeys,hfields⟩
    rw [fits, Bool.and_eq_true, fitsFields_iff, List.all_eq_true]
    exact ⟨fun p hp => decide_eq_true (hkeys p hp),hfields⟩

/-- What is written for a field. -/
def Written (f : String × Shape) (entry : String × Value) : Prop :=
  entry.1 = f.1 ∧ fits f.2 entry.2 = true

theorem written_keys (fields : List (String × Shape)) (entries : Members)
    (h : List.Forall₂ Written fields entries) :
    entries.map Prod.fst = fields.map Prod.fst := by
  induction h with
  | nil => rfl
  | cons hw _ ih => rw [List.map_cons, List.map_cons, hw.1, ih]

theorem written_entry (fields : List (String × Shape)) (entries : Members)
    (h : List.Forall₂ Written fields entries) (f : String × Shape) (hf : f ∈ fields) :
    ∃ v, (f.1,v) ∈ entries ∧ fits f.2 v = true := by
  induction h with
  | nil => cases hf
  | @cons g entry fields entries hw _ ih =>
    rcases List.mem_cons.mp hf with rfl | hf
    · exact ⟨entry.2,by rw [← hw.1]; exact List.mem_cons_self,hw.2⟩
    · obtain ⟨v,hv,hfit⟩ := ih hf
      exact ⟨v,List.mem_cons_of_mem _ hv,hfit⟩

/-- An object literal fits the record of its fields, whatever their order. -/
theorem fits_ofMembers (fields : List (String × Shape)) (entries : Members)
    (hk : (fields.map Prod.fst).Nodup) (h : List.Forall₂ Written fields entries) :
    fits (.record fields) (.ofMembers entries) = true := by
  have hn : (entries.map Prod.fst).Nodup := by
    rw [written_keys fields entries h]
    exact hk
  refine (fits_record_iff fields _).mpr ⟨_,rfl,?_,?_⟩
  · intro p hp
    have hkey := (SortedAssoc.mem_keys_insertAll entries [] p.1).mp (List.mem_map_of_mem hp)
    rw [written_keys fields entries h] at hkey
    simpa using hkey
  · intro f hf
    obtain ⟨v,hv,hfit⟩ := written_entry fields entries h f hf
    have hl : (SortedAssoc.insertAll entries []).lookup f.1 = some v := by
      rw [SortedAssoc.lookup_insertAll, SortedAssoc.lookup_reverse entries hn,
        SortedAssoc.lookup_of_mem entries hn (f.1,v) hv]
      rfl
    refine ⟨?_,?_⟩
    · intro w hw
      rw [hl] at hw
      cases hw
      exact hfit
    · intro hnone
      rw [hl] at hnone
      cases hnone

/-- The entries of a table say themselves under which key they are. -/
theorem fits_keyed_iff (field : String) (s : Shape) (m : Members) :
    fits (.keyed field s) (.object m) = true ↔
      ∀ p ∈ m, fits s p.2 = true ∧ (p.2.get field).bind Value.asStr = some p.1 := by
  rw [fits, List.all_eq_true]
  simp

/-! ## The order -/

def Below (s t : Shape) : Prop := ∀ v, fits s v = true → fits t v = true

theorem below_refl (s : Shape) : Below s s := fun _ h => h

theorem below_left (s t : Shape) : Below s (.either s t) := by
  intro v h
  rw [fits, h, Bool.true_or]

theorem below_right (s t : Shape) : Below t (.either s t) := by
  intro v h
  rw [fits, h, Bool.or_true]

theorem below_optional (s t : Shape) (h : Below s t) : Below s (.optional t) := by
  intro v hv
  rw [fits]
  exact h v hv

/-- A field of the one record against that of the other. -/
def FieldBelow (f g : String × Shape) : Prop :=
  f.1 = g.1 ∧ Below f.2 g.2 ∧ (allowsAbsent f.2 = true → allowsAbsent g.2 = true)

theorem fieldBelow_refl (f : String × Shape) : FieldBelow f f := ⟨rfl,below_refl _,id⟩

theorem fieldBelow_required (k : String) (s t : Shape) (h : Below s t)
    (hs : allowsAbsent s = false) : FieldBelow (k,s) (k,t) :=
  ⟨rfl,h,fun ha => by rw [hs] at ha; cases ha⟩

theorem below_record (fields fields' : List (String × Shape))
    (h : List.Forall₂ FieldBelow fields fields') : Below (.record fields) (.record fields') := by
  intro v hv
  obtain ⟨m,rfl,hkeys,hfields⟩ := (fits_record_iff fields v).mp hv
  refine (fits_record_iff fields' _).mpr ⟨m,rfl,?_,?_⟩
  · have hsame : fields.map Prod.fst = fields'.map Prod.fst := by
      clear hv hkeys hfields
      induction h with
      | nil => rfl
      | cons hf _ ih => rw [List.map_cons, List.map_cons, hf.1, ih]
    rw [← hsame]
    exact hkeys
  · clear hv hkeys
    induction h with
    | nil => exact fun f hf => by cases hf
    | @cons f g fields fields' hf _ ih =>
      rw [List.forall_mem_cons] at hfields ⊢
      refine ⟨?_,ih hfields.2⟩
      obtain ⟨hthere,hmissing⟩ := hfields.1
      rw [FieldFits, ← hf.1]
      exact ⟨fun w hw => hf.2.1 w (hthere w hw),fun hn => hf.2.2 (hmissing hn)⟩

theorem below_keyed (field : String) (s t : Shape) (h : Below s t) :
    Below (.keyed field s) (.keyed field t) := by
  intro v hv
  cases v with
  | object m =>
    rw [fits_keyed_iff] at hv ⊢
    exact fun p hp => ⟨h p.2 (hv p hp).1,(hv p hp).2⟩
  | _ => simp [fits] at hv

/-- A name in the lower table has a shape below it. -/
theorem lookup_below (fields fields' : List (String × Shape))
    (h : List.Forall₂ FieldBelow fields fields') (k : String) (t : Shape)
    (ht : fields'.lookup k = some t) : ∃ s, fields.lookup k = some s ∧ Below s t := by
  induction h with
  | nil => cases ht
  | @cons f g fields fields' hf _ ih =>
    rw [SortedAssoc.lookup_entry] at ht ⊢
    rw [← hf.1] at ht
    by_cases hk : k = f.1
    · rw [if_pos hk] at ht ⊢
      cases ht
      exact ⟨f.2,rfl,hf.2.1⟩
    · rw [if_neg hk] at ht ⊢
      exact ih ht

end Shape

end RlStatsApi.JsonShape
