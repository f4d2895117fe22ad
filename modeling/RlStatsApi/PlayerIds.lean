import RlStatsApi.CodecLayout
import RlStatsApi.SosTranslation

/-!
# The ids of players

A frame enters a player under his id, and the other messages name him by
his reference's id. Both put the name and the shortcut together. A frame's
player takes the shortcut of his own field first, a reference that of the
collected members. The target of a frame is its plain name when the
reference has no shortcut but 0.
-/

set_option autoImplicit false

namespace RlStatsApi.PlayerIds
open RlStatsApi.TextLines RlStatsApi.JsonValue RlStatsApi.SortedAssoc RlStatsApi.SerdeCodec
open RlStatsApi.CodecLayout RlStatsApi.EventData RlStatsApi.EventValues RlStatsApi.EventParsing
open RlStatsApi.SosTranslation

/-! ## Members of what is written -/

theorem valueStep_ofMembers (entries : Members) (k : String) :
    valueStep (.ofMembers entries) (.key k) = entries.reverse.lookup k :=
  Value.get_ofMembers entries k

theorem lookup_of_key (entries : Members) (k : String) (h : k ∈ entries.map Prod.fst) :
    ∃ v, (k,v) ∈ entries ∧ entries.lookup k = some v := by
  induction entries with
  | nil => cases h
  | cons p entries ih =>
    rw [lookup_entry]
    by_cases hk : k = p.1
    · exact ⟨p.2,by simp [hk],if_pos hk⟩
    · have hrest : k ∈ entries.map Prod.fst := by simpa [hk] using h
      obtain ⟨v,hv,hl⟩ := ih hrest
      exact ⟨v,List.mem_cons_of_mem p hv,by rw [if_neg hk, hl]⟩

/-! ## Shortcuts -/

/-- No reference that was read collects a member `Shortcut`. -/
theorem firstI64_claimed (j : Value) (r : PlayerRef) (h : PlayerRef.codec.de j = some r) :
    firstI64 r.extra ["Shortcut","shortcut"] = firstI64 r.extra ["shortcut"] := by
  obtain ⟨m,_,_,hx⟩ := Record.flattened_read _ _ _ (fun _ => rfl) j r h
  have hn : r.extra.lookup "Shortcut" = none := by
    change r.extra = without PlayerRef.record.keys m at hx
    rw [hx, lookup_without, if_pos (by simp [PlayerRef.record])]
  simp [firstI64, firstValue, hn]

/-- The shortcut of a reference: a readable member `shortcut`, or else its
field unless that is 0. -/
theorem playerRefShortcut_read (j : Value) (r : PlayerRef) (h : PlayerRef.codec.de j = some r) :
    playerRefShortcut r = (firstI64 r.extra ["shortcut"]).or
      (if r.shortcut ≠ 0 then some r.shortcut else none) := by
  rw [playerRefShortcut, firstI64_claimed j r h]

theorem shortcut_agrees_iff (j : Value) (r : PlayerRef) (h : PlayerRef.codec.de j = some r) :
    (playerRefShortcut r).getD 0 = r.shortcut ↔
      ∀ i, firstI64 r.extra ["shortcut"] = some i → i = r.shortcut := by
  rw [playerRefShortcut_read j r h]
  cases firstI64 r.extra ["shortcut"] with
  | some i => simp
  | none =>
    by_cases hz : r.shortcut = 0
    · simp [hz]
    · simp [hz]

/-! ## Ids in messages -/

/-- The references of an event whose ids its message carries, with the ids'
paths. -/
def emittedRefs : StatsEvent → List (List Step × PlayerRef)
  | .ballHit d => d.players.head?.toList.map (fun r => ([.key "player",.key "id"],r))
  | .statfeedEvent d =>
    ([.key "main_target",.key "id"],d.mainTarget)::
      d.secondaryTarget.toList.map (fun r => ([.key "secondary_target",.key "id"],r))
  | .goalScored d =>
    ([.key "scorer",.key "id"],d.scorer)::
      ([.key "ball_last_touch",.key "player"],d.ballLastTouch.player)::
      d.assister.toList.map (fun r => ([.key "assister",.key "id"],r))
  | _ => []

def targetPath : List Step := [.key "game",.key "target"]

theorem playerId_named (p : UpdateStatePlayer) (n : String) (s : I64) (hn : p.name = some n)
    (hs : p.shortcut = some s) : playerId p = formatPlayerId n s := by
  simp [playerId, effectiveShortcut, hn, hs]

theorem emitted_id (event : StatsEvent) (path : List Step) (r : PlayerRef)
    (h : (path,r) ∈ emittedRefs event) :
    ∃ envelope, translateStatsEvent event = .ok [envelope] ∧
      valueAt envelope.data path = some (.string (playerRefId r)) := by
  cases event with
  | ballHit d =>
    refine ⟨_,rfl,?_⟩
    simp only [emittedRefs, List.mem_map, Option.mem_toList, Prod.mk.injEq] at h
    obtain ⟨_,hr,rfl,rfl⟩ := h
    simp [ballHitPayload, valueStep_ofMembers, lookup_entry, valueAt, hr]
  | statfeedEvent d =>
    refine ⟨_,rfl,?_⟩
    simp only [emittedRefs, List.mem_cons, List.mem_map, Option.mem_toList, Prod.mk.injEq] at h
    rcases h with ⟨rfl,rfl⟩ | ⟨_,hr,rfl,rfl⟩
    · simp [statfeedPayload, statfeedTarget, valueStep_ofMembers, lookup_entry, valueAt]
    · simp [statfeedPayload, statfeedTarget, statfeedSecondaryTarget, valueStep_ofMembers,
        lookup_entry, valueAt, hr]
  | goalScored d =>
    refine ⟨_,rfl,?_⟩
    simp only [emittedRefs, List.mem_cons, List.mem_map, Option.mem_toList, Prod.mk.injEq] at h
    rcases h with ⟨rfl,rfl⟩ | ⟨rfl,rfl⟩ | ⟨_,hr,rfl,rfl⟩
    · simp [goalScoredPayload, scorerPayload, valueStep_ofMembers, lookup_entry, valueAt]
    · simp [goalScoredPayload, valueStep_ofMembers, lookup_entry, valueAt]
    · simp [goalScoredPayload, assisterPayload, scorerPayload, valueStep_ofMembers, lookup_entry,
        valueAt, hr]
  | _ => cases h

theorem emitted_target (frame : UpdateStateData) (r : PlayerRef) (h : frame.game.target = some r) :
    valueAt (translateUpdateState frame) targetPath = some (.string (targetRefValue r)) := by
  simp [translateUpdateState, targetPath, valueStep_ofMembers, lookup_entry, valueAt, h]

/-- A player's key is taken, by him or by a later player with the same id. -/
theorem player_key (frame : UpdateStateData) (p : UpdateStatePlayer) (hp : p ∈ frame.players) :
    ∃ q ∈ frame.players, playerId q = playerId p ∧
      valueAt (translateUpdateState frame) [.key "players",.key (playerId p)] =
        some (playerPayload q (playerId p)) := by
  have hkey : playerId p ∈ ((frame.players.map (fun player =>
      (playerId player,playerPayload player (playerId player)))).reverse).map Prod.fst := by
    simp only [List.map_reverse, List.mem_reverse, List.map_map]
    exact List.mem_map_of_mem hp
  obtain ⟨v,hv,hl⟩ := lookup_of_key _ _ hkey
  rw [List.mem_reverse, List.mem_map] at hv
  obtain ⟨q,hq,he⟩ := hv
  obtain ⟨hid,rfl⟩ := Prod.mk.inj he
  refine ⟨q,hq,hid,?_⟩
  simp [translateUpdateState, translatePlayers, valueStep_ofMembers, lookup_entry, hl, valueAt, hid]

theorem playerRefId_agrees (j : Value) (r : PlayerRef) (h : PlayerRef.codec.de j = some r)
    (hx : ∀ i, firstI64 r.extra ["shortcut"] = some i → i = r.shortcut) :
    playerRefId r = formatPlayerId r.name r.shortcut := by
  rw [playerRefId, (shortcut_agrees_iff j r h).mpr hx]

theorem targetRefValue_agrees (j : Value) (r : PlayerRef) (h : PlayerRef.codec.de j = some r)
    (hx : ∀ i, firstI64 r.extra ["shortcut"] = some i → i = r.shortcut) :
    targetRefValue r = if r.shortcut = 0 ∧ firstI64 r.extra ["shortcut"] = none then r.name
      else formatPlayerId r.name r.shortcut := by
  rw [targetRefValue, playerRefId_agrees j r h hx, playerRefShortcut_read j r h]
  cases firstI64 r.extra ["shortcut"] with
  | some i => simp
  | none =>
    by_cases hz : r.shortcut = 0
    · simp [hz]
    · simp [hz]

/-- A reference with the name and the shortcut of a frame's player has his
key as its id in every message, when no member `shortcut` of it reads as
another number. A frame's target with no shortcut but 0 is the plain name. -/
theorem player_ids_agree (frame : UpdateStateData) (p : UpdateStatePlayer)
    (hp : p ∈ frame.players) (n : String) (s : I64) (hpn : p.name = some n)
    (hps : p.shortcut = some s) (j : Value) (r : PlayerRef) (hj : PlayerRef.codec.de j = some r)
    (hrn : r.name = n) (hrs : r.shortcut = s)
    (hx : ∀ i, firstI64 r.extra ["shortcut"] = some i → i = s) :
    ∃ frameEnvelope, translateStatsEvent (.updateState frame) = .ok [frameEnvelope] ∧
      (∃ q ∈ frame.players, playerId q = playerId p ∧
        valueAt frameEnvelope.data [.key "players",.key (playerId p)] =
          some (playerPayload q (playerId p))) ∧
      (∀ event path, (path,r) ∈ emittedRefs event →
        ∃ envelope, translateStatsEvent event = .ok [envelope] ∧
          valueAt envelope.data path = some (.string (playerId p))) ∧
      (frame.game.target = some r →
        valueAt frameEnvelope.data targetPath = some (.string
          (if s = 0 ∧ firstI64 r.extra ["shortcut"] = none then n else playerId p))) := by
  subst hrn hrs
  have hid := playerId_named p r.name r.shortcut hpn hps
  refine ⟨_,rfl,player_key frame p hp,?_,?_⟩
  · intro event path h
    obtain ⟨envelope,ht,hv⟩ := emitted_id event path r h
    rw [playerRefId_agrees j r hj hx, ← hid] at hv
    exact ⟨envelope,ht,hv⟩
  · intro ht
    rw [hid, ← targetRefValue_agrees j r hj hx]
    exact emitted_target frame r ht

/-- A frame with one player, looked at by its target. -/
def watchedFrame (name : String) (shortcut : I64) : UpdateStateData where
  matchGuid := none
  players :=
    [⟨some name,none,some shortcut,none,none,none,none,none,none,none,none,none,none,none,none,
      none,none,none,none,none,none,none,none,none,[]⟩]
  game := {UpdateStateGame.default with target := some ⟨name,shortcut,0,[]⟩}
  extra := []

def namedRef (name : String) (shortcut : I64) : Value :=
  .object [("Name",.string name),("Shortcut",.ofI64 shortcut)]

theorem target_agrees : ∃ p ∈ (watchedFrame "A" 1).players,
    ∃ frameEnvelope, translateStatsEvent (.updateState (watchedFrame "A" 1)) = .ok [frameEnvelope] ∧
      valueAt frameEnvelope.data targetPath = some (.string (playerId p)) := by
  refine ⟨_,List.mem_singleton_self _,?_⟩
  obtain ⟨envelope,ht,_,_,h⟩ := player_ids_agree (watchedFrame "A" 1) _
    (List.mem_singleton_self _) "A" 1 rfl rfl (namedRef "A" 1) ⟨"A",1,0,[]⟩ rfl rfl rfl
    (fun i hi => by cases hi)
  exact ⟨envelope,ht,h rfl⟩

/-- Two references to the frame's player that get another id: its target with
the shortcut 0, and one with a second shortcut under the lower-case name. -/
theorem same_player_differs : ∃ p ∈ (watchedFrame "A" 0).players,
    p.name = some "A" ∧ p.shortcut = some 0 ∧ playerId p = "A_0" ∧
    PlayerRef.codec.de (namedRef "A" 0) = (watchedFrame "A" 0).game.target ∧
    valueAt (translateUpdateState (watchedFrame "A" 0)) targetPath = some (.string "A") ∧
    ∃ r, PlayerRef.codec.de (.object [("Name",.string "A"),("Shortcut",.ofI64 0),
        ("shortcut",.ofI64 1)]) = some r ∧ r.name = "A" ∧ r.shortcut = 0 ∧
      playerRefId r = "A_1" := by
  refine ⟨_,List.mem_singleton_self _,rfl,rfl,by decide,rfl,?_,_,rfl,rfl,rfl,by decide⟩
  have h := emitted_target (watchedFrame "A" 0) ⟨"A",0,0,[]⟩ rfl
  exact h

end RlStatsApi.PlayerIds
