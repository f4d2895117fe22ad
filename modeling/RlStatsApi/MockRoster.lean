import Mathlib.Data.Finset.Basic
import RlStatsApi.MockDraws

/-!
# The roster of the mock generator

A player that has been active once is in every later payload, with the
entry that was drawn for it last. The state keeps these entries, and each
tick reads its payload off them; so what one tick keeps holds over every
run, whatever the generator draws.
-/

set_option autoImplicit false

namespace RlStatsApi.MockRoster
open RlStatsApi.JsonValue RlStatsApi.CheckedState RlStatsApi.MockBroadcast RlStatsApi.MockDraws

/-! ## Reading a payload -/

def playersOf (payload : Value) : Members := ((payload.get "players").bind Value.asObject).getD []

def playerIds (payload : Value) : List String := (playersOf payload).map Prod.fst

def entry (payload : Value) (id : String) : Option Value := (playersOf payload).lookup id

theorem mem_playerIds (payload : Value) (id : String) :
    id ∈ playerIds payload ↔ entry payload id ≠ none := by
  constructor
  · intro h
    obtain ⟨p,hp,rfl⟩ := List.mem_map.mp h
    exact SortedAssoc.lookup_ne_none _ p hp
  · intro h
    obtain ⟨v,hv⟩ := Option.ne_none_iff_exists'.mp h
    exact SortedAssoc.key_of_lookup _ id v hv

theorem playersOf_players (payload : Value) (m : Members)
    (h : payload.get "players" = some (.object m)) : playersOf payload = m := by
  rw [playersOf, h]
  rfl

/-- The entry of the last tick in which the player was active. -/
def lastActiveEntry (id : String) (ticks : List Tick) : Option Value :=
  (ticks.filter (fun t => id ∈ t.activeIds)).getLast?.bind (fun t => entry t.payload id)

theorem lastActiveEntry_snoc (id : String) (ticks : List Tick) (t : Tick) :
    lastActiveEntry id (ticks++[t]) =
      if id ∈ t.activeIds then entry t.payload id else lastActiveEntry id ticks := by
  rw [lastActiveEntry, List.filter_append]
  by_cases h : id ∈ t.activeIds
  · simp [h]
  · simp [h, lastActiveEntry]

/-- The entry names an attacker, or none, but not its own player. -/
def NamesAnother (player : MockPlayer) (e : Value) : Prop :=
  ∃ name, e.get "attacker" = some (.string name) ∧ name ≠ player.name

/-! ## The state between ticks -/

structure Roster (r : UpdateStateRandomizer) : Prop where
  pooled : Pooled r
  clock : 0 ≤ r.remainingSeconds.val ∧ r.remainingSeconds.val ≤ 300
  seen : ∀ id, id ∈ r.seenPlayerIds ↔ r.lastPlayerPayloadById.lookup id ≠ none
  known : ∀ id e, r.lastPlayerPayloadById.lookup id = some e →
    ∃ player ∈ pool, player.id = id ∧ Carries player e

theorem roster_new (seed : BitVec 64) (matchGuid : String) : Roster (.new seed matchGuid) where
  pooled := ⟨rfl,rfl⟩
  clock := by
    show (0:ℤ) ≤ 300 ∧ (300:ℤ) ≤ 300
    omega
  seen id := by simp [UpdateStateRandomizer.new]
  known id e h := by cases h

theorem roster_redrawn (r r' : UpdateStateRandomizer) (h : Roster r) (hr : Redrawn r r') :
    Roster r' := by
  obtain ⟨x,rfl⟩ := hr
  exact ⟨h.pooled,h.clock,h.seen,h.known⟩

/-- The clock and the scores have moved; the entries stay. -/
def Moved (r r' : UpdateStateRandomizer) : Prop :=
  Roster r' ∧ r'.lastPlayerPayloadById = r.lastPlayerPayloadById

theorem advanceClock_returns (r : UpdateStateRandomizer) (h : Roster r) :
    Returns advanceClock r (fun _ r' => Moved r r') := by
  rw [advanceClock, returns_bind, returns_modify]
  refine within_then (rangeI64_draws 1 (i64 3) (by decide) (by decide)) h.pooled ?_
  rintro drain _ ⟨x,rfl⟩ ⟨hlo,hhi⟩
  have hlo' : 1 ≤ drain.val := hlo
  have hhi' : drain.val ≤ 3 := hhi
  have hc := h.clock
  obtain ⟨remaining,hrem,hv⟩ := checkedI64_eq (r.remainingSeconds.val-drain.val) (by omega)
  simp only [returns_bind, returns_get, returns_lift, returns_set]
  refine ⟨remaining,hrem,?_⟩
  split_ifs with hneg
  · rw [returns_modify]
    refine ⟨⟨h.pooled,?_,h.seen,h.known⟩,rfl⟩
    show (0:ℤ) ≤ 300 ∧ (300:ℤ) ≤ 300
    omega
  · rw [returns_pure]
    refine ⟨⟨h.pooled,?_,h.seen,h.known⟩,rfl⟩
    show 0 ≤ remaining.val ∧ remaining.val ≤ 300
    omega

theorem drawGoal_returns (score : UpdateStateRandomizer → UpdateStateRandomizer)
    (hs : ∀ r, Roster r → Moved r (score r)) (r : UpdateStateRandomizer) (h : Roster r) :
    Returns (drawGoal score) r (fun _ r' => Moved r r') := by
  refine within_then (chance_draws 1 14) h.pooled fun goal r' hr _ => ?_
  have hr' := roster_redrawn r r' h hr
  obtain ⟨x,rfl⟩ := hr
  cases goal with
  | false => exact (returns_pure _ _ _).mpr ⟨hr',rfl⟩
  | true => exact (returns_modify _ _ _).mpr (hs _ hr')

theorem advanceScores_returns (r : UpdateStateRandomizer) (h : Roster r) :
    Returns advanceScores r (fun _ r' => Moved r r') := by
  refine returns_then (drawGoal_returns _ ?_ r h) fun _ r1 h1 => ?_
  · exact fun r h => ⟨⟨h.pooled,h.clock,h.seen,h.known⟩,rfl⟩
  refine returns_mono (drawGoal_returns _ ?_ r1 h1.1) fun _ r2 h2 => ?_
  · exact fun r h => ⟨⟨h.pooled,h.clock,h.seen,h.known⟩,rfl⟩
  exact ⟨h2.1,h2.2.trans h1.2⟩

/-! ## The loop over the active players -/

/-- Where these players are done: their entries are fresh, the others' are
those of the state before. -/
structure Fresh (r : UpdateStateRandomizer) (ids : List String) (activePayloadById : Members)
    (r' : UpdateStateRandomizer) : Prop where
  roster : Roster r'
  fresh : ∀ id, activePayloadById.lookup id =
    if id ∈ ids then r'.lastPlayerPayloadById.lookup id else none
  kept : ∀ id, id ∉ ids →
    r'.lastPlayerPayloadById.lookup id = r.lastPlayerPayloadById.lookup id
  attacker : ∀ player ∈ pool, player.id ∈ ids →
    ∃ e, r'.lastPlayerPayloadById.lookup player.id = some e ∧ NamesAnother player e

theorem lookup_recorded (player : MockPlayer) (payload : Value) (r : UpdateStateRandomizer)
    (id : String) : (recorded player payload r).lastPlayerPayloadById.lookup id =
      if id = player.id then some payload else r.lastPlayerPayloadById.lookup id :=
  SortedAssoc.lookup_insert player.id id payload r.lastPlayerPayloadById

theorem roster_recorded (player : MockPlayer) (hp : player ∈ pool) (payload : Value)
    (hc : Carries player payload) (r : UpdateStateRandomizer) (h : Roster r) :
    Roster (recorded player payload r) where
  pooled := h.pooled
  clock := h.clock
  seen id := by
    rw [lookup_recorded]
    by_cases he : id = player.id
    · simp [recorded, he]
    · simp [recorded, he, h.seen id]
  known id e hl := by
    rw [lookup_recorded] at hl
    split_ifs at hl with he
    · cases hl
      exact ⟨player,hp,he.symm,hc⟩
    · exact h.known id e hl

theorem fresh_redrawn (r : UpdateStateRandomizer) (ids : List String) (fresh : Members)
    (r' r'' : UpdateStateRandomizer) (h : Fresh r ids fresh r') (hr : Redrawn r' r'') :
    Fresh r ids fresh r'' := by
  have hroster := roster_redrawn r' r'' h.roster hr
  obtain ⟨x,rfl⟩ := hr
  exact ⟨hroster,h.fresh,h.kept,h.attacker⟩

theorem fresh_recorded (r : UpdateStateRandomizer) (ids : List String) (fresh : Members)
    (r' : UpdateStateRandomizer) (h : Fresh r ids fresh r') (player : MockPlayer)
    (hp : player ∈ pool) (payload : Value) (hc : Carries player payload)
    (ha : NamesAnother player payload) :
    Fresh r (ids++[player.id]) (SortedAssoc.insert player.id payload fresh)
      (recorded player payload r') where
  roster := roster_recorded player hp payload hc r' h.roster
  fresh id := by
    rw [SortedAssoc.lookup_insert, lookup_recorded, h.fresh]
    by_cases he : id = player.id <;> simp [he]
  kept id hid := by
    simp only [List.mem_append, List.mem_singleton, not_or] at hid
    rw [lookup_recorded, if_neg hid.2, h.kept id hid.1]
  attacker other ho hid := by
    rw [lookup_recorded]
    by_cases he : other.id = player.id
    · rw [if_pos he]
      rw [pool_id_inj other ho player hp he]
      exact ⟨payload,rfl,ha⟩
    · rw [if_neg he]
      exact h.attacker other ho (by simpa [he] using hid)

theorem drawActive_returns (ids : List String) (hl : Lineup ids) (r : UpdateStateRandomizer)
    (h : Roster r) : Returns (drawActive ids) r (Fresh r ids) := by
  have hstart : Fresh r [] [] r :=
    ⟨h,fun _ => rfl,fun _ _ => rfl,fun _ _ hid => by cases hid⟩
  refine returns_mono (returns_foldlM _ ids.zipIdx
    (fun done fresh r' => Fresh r (done.map Prod.fst) fresh r') ?_ [] r hstart) ?_
  · rintro done ⟨id,index⟩ rest fresh r1 hsplit h1
    have hmem : (id,index) ∈ ids.zipIdx := by rw [hsplit]; simp
    have hi : ids[index]? = some id := List.mem_zipIdx_iff_getElem?.mp hmem
    obtain ⟨player,hp,rfl⟩ := hl.pooled id (List.mem_of_getElem? hi)
    refine within_then (drawAttacker_draws ids hl player hp index hi) h1.roster.pooled ?_
    intro name r2 hr2 hname
    have h2 := fresh_redrawn _ _ _ _ _ h1 hr2
    refine within_then (identityFor_draws player hp) h2.roster.pooled ?_
    rintro _ r3 hr3 rfl
    have h3 := fresh_redrawn _ _ _ _ _ h2 hr3
    refine within_then (playerPayload_draws _ name) h3.roster.pooled ?_
    rintro payload r4 hr4 ⟨hc,ha⟩
    have h4 := fresh_redrawn _ _ _ _ _ h3 hr4
    rw [returns_bind, returns_modify, returns_pure, List.map_append]
    exact fresh_recorded r _ fresh r4 h4 _ hp payload hc ⟨name,ha,hname⟩
  · intro fresh r' hf
    rw [List.zipIdx_map_fst] at hf
    exact hf

/-! ## The loop over the pool -/

/-- The payload that the loop inserts for an id. -/
def shown (activePayloadById : Members) (r : UpdateStateRandomizer) (id : String) : Option Value :=
  if id ∈ r.seenPlayerIds then
    (activePayloadById.lookup id).or (r.lastPlayerPayloadById.lookup id)
  else none

theorem lookup_collect (fresh : Members) (r : UpdateStateRandomizer) (m : Members)
    (player : MockPlayer) (id : String) : (collect fresh r m player).lookup id =
      if id = player.id then (shown fresh r id).or (m.lookup id) else m.lookup id := by
  rw [collect, shown]
  by_cases he : id = player.id
  · subst he
    by_cases hs : player.id ∈ r.seenPlayerIds
    · cases (fresh.lookup player.id).or (r.lastPlayerPayloadById.lookup player.id) <;>
        simp [hs, SortedAssoc.lookup_insert]
    · simp [hs]
  · by_cases hs : player.id ∈ r.seenPlayerIds
    · cases (fresh.lookup player.id).or (r.lastPlayerPayloadById.lookup player.id) <;>
        simp [hs, he, SortedAssoc.lookup_insert]
    · simp [hs, he]

theorem sorted_collect (fresh : Members) (r : UpdateStateRandomizer) (m : Members)
    (player : MockPlayer) (hm : SortedAssoc.Sorted m) :
    SortedAssoc.Sorted (collect fresh r m player) := by
  rw [collect]
  split_ifs
  · split
    · exact SortedAssoc.sorted_insert _ _ m hm
    · exact hm
  · exact hm

theorem lookup_collected (fresh : Members) (r : UpdateStateRandomizer)
    (players : List MockPlayer) (m : Members) (id : String) :
    (players.foldl (collect fresh r) m).lookup id =
      if id ∈ players.map MockPlayer.id then (shown fresh r id).or (m.lookup id)
      else m.lookup id := by
  induction players generalizing m with
  | nil => rfl
  | cons player players ih =>
    rw [List.foldl_cons, ih, lookup_collect]
    by_cases he : id = player.id
    · cases shown fresh r id <;> simp [he]
    · simp [he]

theorem collectPlayers_sorted (fresh : Members) (r : UpdateStateRandomizer) :
    SortedAssoc.Sorted (collectPlayers fresh r) :=
  List.foldlRecOn r.players (collect fresh r) List.Pairwise.nil
    fun m hm player _ => sorted_collect fresh r m player hm

/-- The payload shows the last entry of every player. -/
theorem collectPlayers_lookup (r : UpdateStateRandomizer) (ids : List String) (fresh : Members)
    (r' : UpdateStateRandomizer) (h : Fresh r ids fresh r') (id : String) :
    (collectPlayers fresh r').lookup id = r'.lastPlayerPayloadById.lookup id := by
  rw [collectPlayers, lookup_collected, h.roster.pooled.1, shown, h.fresh]
  cases hl : r'.lastPlayerPayloadById.lookup id with
  | none =>
    have hs : id ∉ r'.seenPlayerIds := by rw [h.roster.seen, hl]; simp
    simp [hs]
  | some e =>
    have hs : id ∈ r'.seenPlayerIds := by rw [h.roster.seen, hl]; simp
    obtain ⟨player,hp,hid,_⟩ := h.roster.known id e hl
    rw [if_pos (hid ▸ List.mem_map_of_mem hp), if_pos hs]
    split_ifs <;> rfl

/-! ## One tick -/

structure Step (r : UpdateStateRandomizer) (t : Tick) (r' : UpdateStateRandomizer) : Prop where
  roster : Roster r'
  lineup : Lineup t.activeIds
  once : (playerIds t.payload).Nodup
  shows : ∀ id, entry t.payload id = r'.lastPlayerPayloadById.lookup id
  kept : ∀ id, id ∉ t.activeIds →
    r'.lastPlayerPayloadById.lookup id = r.lastPlayerPayloadById.lookup id
  attacker : ∀ player ∈ pool, player.id ∈ t.activeIds →
    ∃ e, r'.lastPlayerPayloadById.lookup player.id = some e ∧ NamesAnother player e

theorem drawTick_returns (r : UpdateStateRandomizer) (h : Roster r) :
    Returns drawTick r (Step r) := by
  refine returns_then (advanceClock_returns r h) fun _ r1 h1 => ?_
  refine returns_then (advanceScores_returns r1 h1.1) fun _ r2 h2 => ?_
  refine within_then drawActiveIds_draws h2.1.pooled fun ids r3 hr3 hl => ?_
  have h3 := roster_redrawn r2 r3 h2.1 hr3
  refine returns_then (drawActive_returns ids hl r3 h3) fun fresh r4 h4 => ?_
  rw [returns_bind, returns_get]
  refine within_then (updateState_draws r4 _) h4.roster.pooled fun payload r5 hr5 hp => ?_
  rw [returns_pure]
  have h5 := fresh_redrawn r3 ids fresh r4 r5 h4 hr5
  have hplayers := playersOf_players payload _ hp
  have hsame : r5.lastPlayerPayloadById = r4.lastPlayerPayloadById := by
    obtain ⟨x,rfl⟩ := hr5
    rfl
  have hbefore : r3.lastPlayerPayloadById = r.lastPlayerPayloadById := by
    obtain ⟨x,rfl⟩ := hr3
    exact h2.2.trans h1.2
  constructor
  · exact h5.roster
  · exact hl
  · rw [playerIds, hplayers]
    exact SortedAssoc.nodup_keys _ (collectPlayers_sorted fresh r4)
  · intro id
    rw [entry, hplayers, collectPlayers_lookup r3 ids fresh r4 h4, hsame]
  · intro id hid
    rw [h5.kept id hid, hbefore]
  · exact h5.attacker

/-! ## Runs -/

/-- What a tick of a run keeps, after the ticks before it. -/
structure RosterTick (before : List Tick) (t : Tick) : Prop where
  distinct : t.activeIds.Nodup
  shown : t.activeIds ⊆ playerIds t.payload
  kept : ∀ p ∈ before, playerIds p.payload ⊆ playerIds t.payload
  pooled : playerIds t.payload ⊆ pool.map MockPlayer.id
  atMostSix : (playerIds t.payload).length ≤ 6
  identity : ∀ player ∈ pool, ∀ e, entry t.payload player.id = some e → Carries player e
  attacker : ∀ player ∈ pool, player.id ∈ t.activeIds →
    ∀ e, entry t.payload player.id = some e → NamesAnother player e
  inactive : ∀ id, id ∉ t.activeIds → entry t.payload id = lastActiveEntry id before

/-- The ticks so far and the state after them. -/
structure Kept (ticks : List Tick) (r : UpdateStateRandomizer) : Prop where
  roster : Roster r
  last : ∀ id, r.lastPlayerPayloadById.lookup id = lastActiveEntry id ticks
  known : ∀ p ∈ ticks, ∀ id ∈ playerIds p.payload, r.lastPlayerPayloadById.lookup id ≠ none
  each : ∀ before t after, ticks = before++t::after → RosterTick before t

section Step

variable {r r' : UpdateStateRandomizer} {t : Tick} (h : Step r t r')
include h

theorem active_known (id : String) (hid : id ∈ t.activeIds) :
    r'.lastPlayerPayloadById.lookup id ≠ none := by
  obtain ⟨player,hp,rfl⟩ := h.lineup.pooled id hid
  obtain ⟨e,he,_⟩ := h.attacker player hp hid
  rw [he]
  simp

theorem known_after (id : String) (hid : r.lastPlayerPayloadById.lookup id ≠ none) :
    r'.lastPlayerPayloadById.lookup id ≠ none := by
  by_cases ha : id ∈ t.activeIds
  · exact active_known h id ha
  · rw [h.kept id ha]
    exact hid

theorem mem_shown (id : String) :
    id ∈ playerIds t.payload ↔ r'.lastPlayerPayloadById.lookup id ≠ none := by
  rw [mem_playerIds, h.shows]

theorem step_pooled : playerIds t.payload ⊆ pool.map MockPlayer.id := by
  intro id hid
  obtain ⟨e,he⟩ := Option.ne_none_iff_exists'.mp ((mem_shown h id).mp hid)
  obtain ⟨player,hp,rfl,_⟩ := h.roster.known id e he
  exact List.mem_map_of_mem hp

theorem step_identity (player : MockPlayer) (hp : player ∈ pool) (e : Value)
    (he : entry t.payload player.id = some e) : Carries player e := by
  rw [h.shows] at he
  obtain ⟨other,ho,hid,hc⟩ := h.roster.known _ e he
  rw [pool_id_inj other ho player hp hid] at hc
  exact hc

theorem step_roster (ticks : List Tick) (hk : Kept ticks r) : RosterTick ticks t where
  distinct := h.lineup.nodup
  shown id hid := (mem_shown h id).mpr (active_known h id hid)
  kept p hp id hid := (mem_shown h id).mpr (known_after h id (hk.known p hp id hid))
  pooled := step_pooled h
  atMostSix := (List.subperm_of_subset h.once (step_pooled h)).length_le
  identity := step_identity h
  attacker player hp hid e he := by
    obtain ⟨e',he',hn⟩ := h.attacker player hp hid
    rw [h.shows, he'] at he
    cases he
    exact hn
  inactive id hid := by rw [h.shows, h.kept id hid, hk.last]

theorem kept_snoc (ticks : List Tick) (hk : Kept ticks r) : Kept (ticks++[t]) r' where
  roster := h.roster
  last id := by
    rw [lastActiveEntry_snoc]
    split_ifs with hid
    · exact (h.shows id).symm
    · rw [h.kept id hid, hk.last]
  known p hp id hid := by
    rcases List.mem_append.mp hp with hp | hp
    · exact known_after h id (hk.known p hp id hid)
    · rw [List.mem_singleton.mp hp] at hid
      exact (mem_shown h id).mp hid
  each before u after hsplit := by
    -- The tick is the new one, or it stands before it.
    rcases List.eq_nil_or_concat after with rfl | ⟨after,w,rfl⟩
    · obtain ⟨rfl,he⟩ := List.append_inj' hsplit rfl
      cases he
      exact step_roster h ticks hk
    · have hlast : ticks++[t] = (before++u::after)++[w] := by simpa using hsplit
      exact hk.each before u after (List.append_inj' hlast rfl).1

end Step

/-- The ticks of that many calls. -/
def drawTicks : ℕ → Gen (List Tick)
  | 0 => return []
  | n+1 => do
    let ticks ← drawTicks n
    let t ← drawTick
    return ticks++[t]

theorem drawTicks_snoc (n : ℕ) (r r' r'' : UpdateStateRandomizer) (ticks : List Tick) (t : Tick)
    (h : drawTicks n r = some (ticks,r')) (ht : drawTick r' = some (t,r'')) :
    drawTicks (n+1) r = some (ticks++[t],r'') := by
  rw [drawTicks, bind_run, h, Option.bind_some, bind_run, ht, Option.bind_some]
  rfl

/-- Their payloads alone. -/
def payloads : ℕ → Gen (List Value)
  | 0 => return []
  | n+1 => do
    let before ← payloads n
    let payload ← nextUpdateStatePayload
    return before++[payload]

theorem payloads_eq (n : ℕ) : payloads n = List.map Tick.payload <$> drawTicks n := by
  induction n with
  | zero => rfl
  | succ n ih => simp [payloads, drawTicks, ih, nextUpdateStatePayload]

theorem kept_new (seed : BitVec 64) (matchGuid : String) : Kept [] (.new seed matchGuid) where
  roster := roster_new seed matchGuid
  last _ := rfl
  known _ hp := by cases hp
  each before t after hsplit := by simp at hsplit

theorem drawTicks_returns (seed : BitVec 64) (matchGuid : String) (n : ℕ) :
    Returns (drawTicks n) (.new seed matchGuid) (fun ticks r => ticks.length = n ∧ Kept ticks r) := by
  induction n with
  | zero => exact (returns_pure _ _ _).mpr ⟨rfl,kept_new seed matchGuid⟩
  | succ n ih =>
    refine returns_then ih fun ticks r hk => ?_
    refine returns_then (drawTick_returns r hk.2.roster) fun t r' ht => ?_
    rw [returns_pure]
    exact ⟨by simp [hk.1],kept_snoc ht ticks hk.2⟩

/-- Whatever the seed, any number of calls returns, with the clock in its
range, and every tick of the run keeps the roster of the ticks before it. -/
theorem roster_kept (seed : BitVec 64) (matchGuid : String) (n : ℕ) :
    ∃ ticks r, drawTicks n (.new seed matchGuid) = some (ticks,r) ∧
      payloads n (.new seed matchGuid) = some (ticks.map Tick.payload,r) ∧
      ticks.length = n ∧ 0 ≤ r.remainingSeconds.val ∧ r.remainingSeconds.val ≤ 300 ∧
      ∀ before t after, ticks = before++t::after → RosterTick before t := by
  obtain ⟨ticks,r,hrun,hlen,hk⟩ := drawTicks_returns seed matchGuid n
  refine ⟨ticks,r,hrun,?_,hlen,hk.roster.clock.1,hk.roster.clock.2,hk.each⟩
  rw [payloads_eq, map_run, hrun]
  rfl

example : (drawTicks 3 (.new 42#64 "")).map (fun p => p.1.map Tick.activeIds) =
    some [["BlueKeeper_6","OrangeStriker_2"],
      ["BlueMid_3","BlueKeeper_6","OrangeStriker_2","OrangeMid_4","OrangeKeeper_5","BlueStriker_1"],
      ["OrangeKeeper_5","BlueStriker_1"]] := by
  decide +kernel

end RlStatsApi.MockRoster
