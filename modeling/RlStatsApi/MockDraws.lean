import RlStatsApi.MockBroadcast

/-!
# Draws of the mock generator

A draw returns from every state with the pool's identities, changes nothing
but the generator, and stays in its range. An object literal of draws has
the members that are not drawn as they are written.
-/

set_option autoImplicit false

namespace RlStatsApi.MockDraws
open RlStatsApi.JsonValue RlStatsApi.CheckedState RlStatsApi.MockBroadcast

def Pooled (r : UpdateStateRandomizer) : Prop :=
  r.players = pool ∧ r.playerIdentityById = identities pool

/-- The states differ in the generator at most. -/
def Redrawn (r r' : UpdateStateRandomizer) : Prop := ∃ x, r' = {r with rngState := x}

theorem frame : Frame Pooled Redrawn where
  refl r := ⟨r.rngState,rfl⟩
  trans := by
    rintro r _ _ ⟨x,rfl⟩ ⟨y,rfl⟩
    exact ⟨y,rfl⟩
  keeps := by
    rintro r _ ⟨x,rfl⟩ h
    exact h

abbrev Draws {α : Type} (x : Gen α) (Q : α → Prop) : Prop := Within Pooled Redrawn x Q

/-! ## Numbers -/

theorem checkedU64_eq (i : ℤ) (h : 0 ≤ i ∧ i < 2^64) :
    ∃ n : U64, checkedU64 i = some n ∧ (n.val : ℤ) = i := by
  refine ⟨⟨i.toNat,by omega⟩,by rw [checkedU64, dif_pos h],?_⟩
  show (i.toNat : ℤ) = i
  omega

theorem checkedI64_eq (i : ℤ) (h : -2^63 ≤ i ∧ i < 2^63) :
    ∃ n : I64, checkedI64 i = some n ∧ n.val = i :=
  ⟨⟨i,h.1,h.2⟩,by rw [checkedI64, dif_pos h.1, dif_pos h.2],rfl⟩

theorem checkedRem_eq (a b : ℕ) (h : 0 < b) : checkedRem a b = some (a%b) :=
  if_neg h.ne'

theorem asU64_val (i : I64) (h : 0 ≤ i.val) : ((asU64 i).val : ℤ) = i.val := by
  have hu := i.upper
  simp only [asU64]
  omega

theorem asI64_val (n : ℕ) (h : n < 2^63) : (asI64 n).val = n := by
  have hn : n%2^64 = n := Nat.mod_eq_of_lt (by omega)
  rw [asI64, dif_pos (by omega)]
  show ((n%2^64 : ℕ) : ℤ) = n
  rw [hn]

theorem nextU64_draws : Draws nextU64 (fun _ => True) := by
  intro r _
  exact ⟨_,_,rfl,⟨_,rfl⟩,trivial⟩

/-- The width of the range must fit as well. -/
theorem rangeU64_draws (min max : U64) (h : min.val ≤ max.val) (hw : max.val-min.val+1 < 2^64) :
    Draws (rangeU64 min max) (fun v => min.val ≤ v.val ∧ v.val ≤ max.val) := by
  refine within_bind frame (within_guard frame _ h) fun _ _ => ?_
  by_cases he : min = max
  · rw [if_pos he]
    exact within_pure frame _ _ ⟨le_rfl,h⟩
  · rw [if_neg he]
    refine within_bind frame nextU64_draws fun x _ => ?_
    obtain ⟨width,hwidth,hwv⟩ := checkedU64_eq (max.val-min.val) (by omega)
    obtain ⟨n,hn,hnv⟩ := checkedU64_eq (width.val+1) (by omega)
    have hr := Nat.mod_lt x.val (show 0 < n.val by omega)
    have hrem := checkedRem_eq x.val n.val (by omega)
    obtain ⟨v,hv,hvv⟩ := checkedU64_eq (min.val+(x.val%n.val : ℕ)) (by omega)
    refine within_bind_lift frame hwidth ?_
    refine within_bind_lift frame hn ?_
    refine within_bind_lift frame hrem ?_
    exact within_lift frame _ _ ⟨v,hv,by omega,by omega⟩

theorem rangeI64_draws (min max : I64) (h : min.val ≤ max.val) (hw : max.val-min.val+1 < 2^63) :
    Draws (rangeI64 min max) (fun v => min.val ≤ v.val ∧ v.val ≤ max.val) := by
  refine within_bind frame (within_guard frame _ h) fun _ _ => ?_
  by_cases he : min = max
  · rw [if_pos he]
    exact within_pure frame _ _ ⟨le_rfl,h⟩
  · rw [if_neg he]
    refine within_bind frame nextU64_draws fun x _ => ?_
    obtain ⟨width,hwidth,hwv⟩ := checkedI64_eq (max.val-min.val) (by omega)
    obtain ⟨n,hn,hnv⟩ := checkedI64_eq (width.val+1) (by omega)
    have hc := asU64_val n (by omega)
    have hr := Nat.mod_lt x.val (show 0 < (asU64 n).val by omega)
    have hrem := checkedRem_eq x.val (asU64 n).val (by omega)
    have hs := asI64_val (x.val%(asU64 n).val) (by omega)
    have hlo := min.lower
    have hhi := max.upper
    obtain ⟨v,hv,hvv⟩ := checkedI64_eq (min.val+(asI64 (x.val%(asU64 n).val)).val) (by omega)
    refine within_bind_lift frame hwidth ?_
    refine within_bind_lift frame hn ?_
    refine within_bind_lift frame hrem ?_
    exact within_lift frame _ _ ⟨v,hv,by omega,by omega⟩

theorem chance_draws (numerator denominator : U64) :
    Draws (chance numerator denominator) (fun _ => True) := by
  rw [chance]
  by_cases hd : denominator = 0
  · rw [if_pos hd]
    exact within_pure frame _ _ trivial
  · rw [if_neg hd]
    exact within_bind frame nextU64_draws fun _ _ => within_pure frame _ _ trivial

/-! ## Object literals -/

/-- A value that is drawn, of which nothing is said. -/
abbrev Drawn (x : Gen Value) : Prop := Draws x (fun _ => True)

/-- What is written at a member, unless it is drawn. -/
def Literal (m : String × Gen Value) (entry : String × Value) : Prop :=
  entry.1 = m.1 ∧ ∀ w, m.2 = pure w → entry.2 = w

theorem member_draws (m : String × Gen Value) (h : Drawn m.2) :
    Draws ((m.1,·) <$> m.2) (Literal m) := by
  intro r hr
  obtain ⟨a,r',ha,hR,_⟩ := h r hr
  refine (returns_map _ _ r _).mpr ⟨a,r',ha,hR,rfl,?_⟩
  intro w hw
  rw [hw] at ha
  cases ha
  rfl

theorem object_draws (members : List (String × Gen Value)) (h : ∀ m ∈ members, Drawn m.2) :
    Draws (object members)
      (fun v => ∃ entries, v = .ofMembers entries ∧ List.Forall₂ Literal members entries) := by
  refine within_bind frame (within_mapM frame _ Literal members fun m hm => ?_) ?_
  · exact member_draws m (h m hm)
  · exact fun entries he => within_pure frame _ _ ⟨entries,rfl,he⟩

theorem object_drawn (members : List (String × Gen Value)) (h : ∀ m ∈ members, Drawn m.2) :
    Drawn (object members) :=
  within_mono (object_draws members h) fun _ _ => trivial

theorem literal_keys (members : List (String × Gen Value)) (entries : Members)
    (h : List.Forall₂ Literal members entries) :
    entries.map Prod.fst = members.map Prod.fst := by
  induction h with
  | nil => rfl
  | cons hm _ ih => rw [List.map_cons, List.map_cons, hm.1, ih]

theorem literal_entry (members : List (String × Gen Value)) (entries : Members)
    (h : List.Forall₂ Literal members entries) (k : String) (w : Value)
    (hk : (k,pure w) ∈ members) : (k,w) ∈ entries := by
  induction h with
  | nil => cases hk
  | @cons m entry members entries hm _ ih =>
    rcases List.mem_cons.mp hk with he | hk
    · have hentry : entry = (k,w) := Prod.ext (by rw [hm.1, ← he]) (hm.2 w (by rw [← he]))
      rw [hentry]
      exact List.mem_cons_self
    · exact List.mem_cons_of_mem _ (ih hk)

/-- With pairwise different keys every member that is not drawn is read back. -/
theorem object_literals (members : List (String × Gen Value))
    (hk : (members.map Prod.fst).Nodup) (h : ∀ m ∈ members, Drawn m.2) :
    Draws (object members) (fun v => ∀ k w, (k,pure w) ∈ members → v.get k = some w) := by
  refine within_mono (object_draws members h) ?_
  rintro _ ⟨entries,rfl,he⟩ k w hm
  have hn : (entries.map Prod.fst).Nodup := by rw [literal_keys members entries he]; exact hk
  rw [Value.get_ofMembers, SortedAssoc.lookup_reverse entries hn]
  exact SortedAssoc.lookup_of_mem entries hn (k,w) (literal_entry members entries he k w hm)

theorem count_drawn (min max : U64) (h : min.val ≤ max.val) (hw : max.val-min.val+1 < 2^64) :
    Drawn (MockBroadcast.count min max) :=
  within_map frame (rangeU64_draws min max h hw) fun _ _ => trivial

theorem flag_drawn (numerator denominator : U64) : Drawn (flag numerator denominator) :=
  within_map frame (chance_draws numerator denominator) fun _ _ => trivial

theorem coordinate_drawn (min max : I64) (h : min.val ≤ max.val) (hw : max.val-min.val+1 < 2^63) :
    Drawn (coordinate min max) :=
  within_map frame (rangeI64_draws min max h hw) fun _ _ => trivial

theorem angle_drawn : Drawn angle :=
  within_map frame (rangeI64_draws _ _ (by decide) (by decide)) fun _ _ => trivial

theorem pure_drawn (v : Value) : Drawn (pure v) := within_pure frame v _ trivial

theorem location_drawn (zMin : I64) (h : zMin.val ≤ 2044) (hw : 2044-zMin.val+1 < 2^63) :
    Drawn (location zMin) := by
  refine object_drawn _ ?_
  simp only [List.forall_mem_cons]
  refine ⟨coordinate_drawn _ _ ?_ ?_,coordinate_drawn _ _ ?_ ?_,coordinate_drawn _ _ h hw,
    angle_drawn,angle_drawn,angle_drawn,by simp⟩ <;> decide

/-! ## Payloads -/

/-- The members of an entry that say whose it is. -/
structure Carries (player : MockPlayer) (entry : Value) : Prop where
  name : entry.get "name" = some (.string player.name)
  id : entry.get "id" = some (.string player.id)
  primaryId : entry.get "primaryID" = some (.string player.primaryId)
  shortcut : entry.get "shortcut" = some (.string player.shortcut)
  team : entry.get "team" = some (.ofU64 player.team)

theorem playerPayload_draws (identity : MockPlayer) (attacker : String) :
    Draws (playerPayload identity attacker)
      (fun v => Carries identity v ∧ v.get "attacker" = some (.string attacker)) := by
  refine within_mono (object_literals _ ?_ ?_) fun v hv => ?_
  · simp only [List.map_cons, List.map_nil]
    decide
  · simp only [List.forall_mem_cons]
    have hc := fun min max => count_drawn min max
    refine ⟨pure_drawn _,pure_drawn _,pure_drawn _,pure_drawn _,hc _ _ ?_ ?_,hc _ _ ?_ ?_,
      hc _ _ ?_ ?_,hc _ _ ?_ ?_,hc _ _ ?_ ?_,hc _ _ ?_ ?_,hc _ _ ?_ ?_,hc _ _ ?_ ?_,hc _ _ ?_ ?_,
      hc _ _ ?_ ?_,pure_drawn _,flag_drawn _ _,flag_drawn _ _,flag_drawn _ _,pure_drawn _,
      pure_drawn _,flag_drawn _ _,flag_drawn _ _,location_drawn _ ?_ ?_,by simp⟩ <;> decide
  · exact ⟨⟨hv _ _ (by simp),hv _ _ (by simp),hv _ _ (by simp),hv _ _ (by simp),
      hv _ _ (by simp)⟩,hv _ _ (by simp)⟩

theorem ball_drawn : Drawn ball := by
  refine object_drawn _ ?_
  simp only [List.forall_mem_cons]
  refine ⟨location_drawn _ ?_ ?_,count_drawn _ _ ?_ ?_,count_drawn _ _ ?_ ?_,by simp⟩ <;> decide

theorem game_drawn (r : UpdateStateRandomizer) : Drawn (game r) := by
  refine object_drawn _ ?_
  simp only [List.forall_mem_cons]
  exact ⟨pure_drawn _,pure_drawn _,pure_drawn _,pure_drawn _,flag_drawn _ _,pure_drawn _,
    pure_drawn _,pure_drawn _,pure_drawn _,ball_drawn,pure_drawn _,by simp⟩

theorem updateState_draws (r : UpdateStateRandomizer) (playerMap : Members) :
    Draws (updateState r playerMap) (fun v => v.get "players" = some (.object playerMap)) := by
  refine within_mono (object_literals _ ?_ ?_) fun v hv => hv _ _ (by simp)
  · simp only [List.map_cons, List.map_nil]
    decide
  · simp only [List.forall_mem_cons]
    exact ⟨pure_drawn _,pure_drawn _,game_drawn r,pure_drawn _,by simp⟩

/-! ## Identities -/

theorem pool_ids_nodup : (pool.map MockPlayer.id).Nodup := by decide

theorem pool_names : ∀ p ∈ pool, p.name ≠ "" ∧ ∀ q ∈ pool, q.name = p.name → q.id = p.id := by
  decide

theorem identities_lookup (players : List MockPlayer) (h : (players.map MockPlayer.id).Nodup)
    (player : MockPlayer) (hp : player ∈ players) :
    (identities players).lookup player.id = some player := by
  have hk : ((players.map (fun p => (p.id,p))).map Prod.fst).Nodup := by
    rw [List.map_map]
    exact h
  rw [identities, SortedAssoc.lookup_insertAll, SortedAssoc.lookup_reverse _ hk,
    SortedAssoc.lookup_of_mem _ hk _ (List.mem_map_of_mem hp)]
  rfl

theorem pool_id_inj (p : MockPlayer) (hp : p ∈ pool) (q : MockPlayer) (hq : q ∈ pool)
    (h : p.id = q.id) : p = q := by
  have hl := identities_lookup pool pool_ids_nodup p hp
  rw [h, identities_lookup pool pool_ids_nodup q hq] at hl
  exact (Option.some.inj hl).symm

theorem identityFor_draws (player : MockPlayer) (hp : player ∈ pool) :
    Draws (identityFor player.id) (· = player) := by
  refine within_bind frame (within_get frame) fun r hr => ?_
  refine within_lift frame _ _ ⟨player,?_,rfl⟩
  rw [hr.2]
  exact identities_lookup pool pool_ids_nodup player hp

/-! ## Active players -/

/-- The player that many places further in the ring. -/
def ring (start offset : ℕ) : MockPlayer :=
  pool.get ⟨(start+offset)%pool.length,Nat.mod_lt _ (by decide)⟩

theorem ring_inj (start a b : ℕ) (ha : a < pool.length) (hb : b < pool.length)
    (h : (ring start a).id = (ring start b).id) : a = b := by
  have hids : ∀ i j : Fin pool.length, (pool.get i).id = (pool.get j).id → i = j := by decide
  have hi := congrArg Fin.val (hids _ _ h)
  have hlen : pool.length = 6 := rfl
  rw [hlen] at ha hb
  simp only [hlen] at hi
  omega

/-- Pairwise different players of the pool, at most all of them. -/
structure Lineup (ids : List String) : Prop where
  nodup : ids.Nodup
  pooled : ∀ id ∈ ids, ∃ player ∈ pool, player.id = id
  short : ids.length ≤ 6

theorem lineup_ring (start n : ℕ) (hn : n ≤ 6) :
    Lineup ((List.range n).map (fun offset => (ring start offset).id)) where
  nodup := by
    refine List.Nodup.map_on ?_ List.nodup_range
    intro a ha b hb h
    have hlen : pool.length = 6 := rfl
    rw [List.mem_range] at ha hb
    exact ring_inj start a b (by omega) (by omega) h
  pooled := by
    intro id hid
    obtain ⟨offset,_,rfl⟩ := List.mem_map.mp hid
    exact ⟨ring start offset,List.get_mem _ _,rfl⟩
  short := by simpa using hn

theorem drawActiveIds_draws : Draws drawActiveIds Lineup := by
  refine within_bind frame (rangeU64_draws 2 6 (by decide) (by decide)) fun n hn => ?_
  refine within_bind frame (within_get frame) fun r hr => ?_
  rw [hr.1]
  obtain ⟨last,hlast,hv⟩ := checkedU64_eq ((pool.length : ℤ)-1) (by decide)
  refine within_bind_lift frame hlast ?_
  have hlast5 : (last.val : ℤ) = 5 := hv
  refine within_bind frame (rangeU64_draws 0 last (Nat.zero_le _) (by omega)) fun start hs => ?_
  have hn6 : n.val ≤ 6 := hn.2
  refine within_mono (within_mapM frame _ (fun offset id => (ring start.val offset).id = id)
    _ fun offset ho => ?_) fun ids hids => ?_
  · rw [List.mem_range] at ho
    obtain ⟨place,hplace,hpv⟩ := checkedU64_eq (start.val+offset) (by omega)
    refine within_bind_lift frame hplace ?_
    have hpl : place.val = start.val+offset := by omega
    refine within_bind_lift frame (checkedRem_eq _ _ (by decide)) ?_
    rw [hpl]
    refine within_bind_lift frame (List.getElem?_eq_getElem (Nat.mod_lt _ (by decide))) ?_
    exact within_pure frame _ _ rfl
  · rw [← List.forall₂_map_left_iff, List.forall₂_eq_eq_eq] at hids
    rw [← hids]
    exact lineup_ring start.val n.val hn6

theorem attacked_draws (ids : List String) :
    Draws (attacked ids) (fun hit => hit = true → 1 < ids.length) := by
  rw [attacked]
  split_ifs with hlen
  · exact within_mono (chance_draws 1 4) fun _ _ _ => hlen
  · exact within_pure frame _ _ fun h => by cases h

theorem attackerPlace_draws (drawn : U64) (index length : ℕ) (hl : 1 < length) (hs : length ≤ 6)
    (hd : drawn.val < length) :
    Draws (attackerPlace drawn index length) (fun idx => idx < length ∧ idx ≠ index) := by
  rw [attackerPlace]
  split_ifs with he
  · obtain ⟨next,hnext,hv⟩ := checkedU64_eq (drawn.val+1) (by omega)
    refine within_bind_lift frame hnext ?_
    refine within_lift frame _ _ ⟨_,checkedRem_eq _ _ (by omega),Nat.mod_lt _ (by omega),?_⟩
    intro hm
    rcases Nat.lt_or_ge next.val length with hlt | hge
    · rw [Nat.mod_eq_of_lt hlt] at hm
      omega
    · have hn : next.val = length := by omega
      rw [hn, Nat.mod_self] at hm
      omega
  · exact within_pure frame _ _ ⟨hd,he⟩

/-- No player is drawn as its own attacker. -/
theorem drawAttacker_draws (ids : List String) (h : Lineup ids) (player : MockPlayer)
    (hp : player ∈ pool) (index : ℕ) (hi : ids[index]? = some player.id) :
    Draws (drawAttacker ids index) (fun name => name ≠ player.name) := by
  have hshort := h.short
  refine within_bind frame (attacked_draws ids) fun hit hhit => ?_
  cases hit with
  | false => exact within_pure frame _ _ (pool_names player hp).1.symm
  | true =>
    have hlen := hhit rfl
    obtain ⟨last,hlast,hv⟩ := checkedU64_eq ((ids.length : ℤ)-1) (by omega)
    refine within_bind_lift frame hlast ?_
    refine within_bind frame (rangeU64_draws 0 last (Nat.zero_le _) (by omega)) fun drawn hd => ?_
    have hd' : drawn.val < ids.length := by omega
    refine within_bind frame (attackerPlace_draws drawn index ids.length hlen hshort hd') ?_
    rintro idx ⟨hidx,hne⟩
    refine within_bind_lift frame (List.getElem?_eq_getElem hidx) ?_
    obtain ⟨other,ho,hid⟩ := h.pooled _ (List.getElem_mem hidx)
    rw [← hid]
    refine within_bind frame (identityFor_draws other ho) ?_
    rintro _ rfl
    refine within_pure frame _ _ fun hname => hne ?_
    obtain ⟨hlt,hown⟩ := List.getElem?_eq_some_iff.mp hi
    have hsame : ids[idx] = ids[index] := by
      rw [← hid, hown, (pool_names player hp).2 _ ho hname]
    exact h.nodup.getElem_inj_iff.mp hsame

end RlStatsApi.MockDraws
