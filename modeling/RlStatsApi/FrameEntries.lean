import RlStatsApi.PlayerIds

/-!
# The entries of a frame

A player's id is his name and his shortcut with the last underscore between
them, so that named players with different names or shortcuts keep their own
entries, and neither the order of the players nor that of the teams matters.
An entry reports the shortcut of the player's own field, where the id may
have taken it from another member.
-/

set_option autoImplicit false

namespace RlStatsApi.FrameEntries
open RlStatsApi.TextLines RlStatsApi.DecimalText RlStatsApi.JsonValue RlStatsApi.SortedAssoc
open RlStatsApi.SerdeCodec RlStatsApi.CodecLayout RlStatsApi.EventData RlStatsApi.EventValues
open RlStatsApi.SosTranslation RlStatsApi.PlayerIds

/-! ## Ids -/

theorem i64_ext (i j : I64) (h : i.val = j.val) : i = j := by
  cases i
  cases j
  cases h
  rfl

theorem formatPlayerId_named (name : String) (s : I64) (hn : trim name.toList ≠ []) :
    (formatPlayerId name s).toList = name.toList++ '_'::signedText s.val := by
  simp [formatPlayerId, hn]

theorem formatPlayerId_blank (name : String) (s : I64) (hn : trim name.toList = []) :
    formatPlayerId name s = "" := if_pos hn

/-- The id of a named player tells his name and his shortcut. -/
theorem formatPlayerId_named_injective (n n' : String) (s s' : I64) (hn : trim n.toList ≠ [])
    (hn' : trim n'.toList ≠ []) (h : formatPlayerId n s = formatPlayerId n' s') :
    n = n' ∧ s = s' := by
  have hl := congrArg String.toList h
  rw [formatPlayerId_named n s hn, formatPlayerId_named n' s' hn'] at hl
  obtain ⟨hname,hshort⟩ := split_at_last '_' _ _ _ _ (underscore_not_mem_signedText _)
    (underscore_not_mem_signedText _) hl
  exact ⟨String.toList_inj.mp hname,i64_ext s s' (signedText_injective _ _ hshort)⟩

theorem formatPlayerId_named_ne_blank (n : String) (s : I64) (hn : trim n.toList ≠ []) :
    formatPlayerId n s ≠ "" := by
  intro h
  have hl := congrArg String.toList h
  rw [formatPlayerId_named n s hn] at hl
  simp at hl

/-! ## The object of the players -/

/-- The name that goes into the id and into the entry. -/
def playerName (p : UpdateStatePlayer) : String := p.name.getD ""

def Named (p : UpdateStatePlayer) : Prop := trim (playerName p).toList ≠ []

theorem playerId_blank (p : UpdateStatePlayer) (h : trim (playerName p).toList = []) :
    playerId p = "" := formatPlayerId_blank _ _ h

def playerEntry (p : UpdateStatePlayer) : String × Value :=
  (playerId p,playerPayload p (playerId p))

def playersObject (data : UpdateStateData) : Members :=
  insertAll (data.players.map playerEntry) []

theorem players_of_frame (data : UpdateStateData) :
    valueAt (translateUpdateState data) [.key "players"] = some (.object (playersObject data)) := by
  simp [translateUpdateState, valueStep_ofMembers, lookup_entry, valueAt]
  rfl

theorem playersObject_sorted (data : UpdateStateData) : Sorted (playersObject data) :=
  sorted_insertAll _ _ List.Pairwise.nil

theorem entry_keys (players : List UpdateStatePlayer) :
    (players.map playerEntry).map Prod.fst = players.map playerId := by
  rw [List.map_map]
  rfl

theorem playersObject_lookup (data : UpdateStateData) (k : String) :
    (playersObject data).lookup k = (data.players.map playerEntry).reverse.lookup k := by
  rw [playersObject, lookup_insertAll]
  simp

theorem playersObject_all (data : UpdateStateData) (h : (data.players.map playerId).Nodup) :
    (playersObject data).length = data.players.length ∧ ∀ p ∈ data.players,
      (playersObject data).lookup (playerId p) = some (playerPayload p (playerId p)) := by
  have hk : ((data.players.map playerEntry).map Prod.fst).Nodup := by rwa [entry_keys]
  constructor
  · rw [playersObject, length_insertAll _ _ hk (by simp)]
    simp
  · intro p hp
    rw [playersObject_lookup, lookup_reverse _ hk]
    exact lookup_of_mem _ hk (playerEntry p) (List.mem_map_of_mem hp)

theorem playerIds_nodup (players : List UpdateStatePlayer) (hn : ∀ p ∈ players, Named p)
    (hd : (players.map (fun p => (playerName p,effectiveShortcut p))).Nodup) :
    (players.map playerId).Nodup := by
  rw [List.Nodup, List.pairwise_map] at hd ⊢
  apply hd.imp_of_mem
  intro p q hp hq hne he
  obtain ⟨h1,h2⟩ := formatPlayerId_named_injective _ _ _ _ (hn p hp) (hn q hq) he
  exact hne (Prod.ext h1 h2)

/-- Named players with pairwise different names or shortcuts all have their
own entries. -/
theorem named_players_kept (data : UpdateStateData) (hn : ∀ p ∈ data.players, Named p)
    (hd : (data.players.map (fun p => (playerName p,effectiveShortcut p))).Nodup) :
    (∃ m, valueAt (translateUpdateState data) [.key "players"] = some (.object m) ∧
      Sorted m ∧ m.length = data.players.length ∧
      ∀ p ∈ data.players, m.lookup (playerId p) = some (playerPayload p (playerId p))) ∧
    ∀ (n n' : String) (s s' : I64), trim n.toList ≠ [] → trim n'.toList ≠ [] →
      formatPlayerId n s = formatPlayerId n' s' → n = n' ∧ s = s' :=
  ⟨⟨playersObject data,players_of_frame data,playersObject_sorted data,
    playersObject_all data (playerIds_nodup data.players hn hd)⟩,formatPlayerId_named_injective⟩

def barePlayer (name : String) (shortcut : Option I64) (extra : Members) : UpdateStatePlayer :=
  ⟨some name,none,shortcut,none,none,none,none,none,none,none,none,none,none,none,none,none,none,
    none,none,none,none,none,none,none,extra⟩

def bareFrame (players : List UpdateStatePlayer) : UpdateStateData :=
  ⟨none,players,.default,[]⟩

/-- One name ends as the other's id does. -/
theorem two_players_kept : ∃ m, valueAt (translateUpdateState
    (bareFrame [barePlayer "A_1" (some 1) [],barePlayer "A" none [("shortcut",.ofI64 1)]]))
      [.key "players"] = some (.object m) ∧ m.length = 2 := by
  have hn : ∀ p ∈ [barePlayer "A_1" (some 1) [],barePlayer "A" none [("shortcut",.ofI64 1)]],
      Named p := by
    simp only [List.forall_mem_cons, Named, playerName, barePlayer]
    decide
  obtain ⟨⟨m,hm,_,hl,_⟩,_⟩ := named_players_kept (bareFrame _) hn (by decide)
  exact ⟨m,hm,hl⟩

/-! ## The order of players and teams -/

theorem indexedTeam_last (teams : List TeamState) (i : I64) :
    indexedTeam teams i = (teams.filter (fun t => decide (t.teamNum = some i))).getLast? := by
  induction teams using List.reverseRecOn with
  | nil => rfl
  | append_singleton teams t ih =>
    have hstep : indexedTeam (teams++[t]) i =
        if t.teamNum = some i then some t else indexedTeam teams i := by
      simp [indexedTeam]
    rw [hstep, ih]
    by_cases ht : t.teamNum = some i <;> simp [ht]

theorem perm_short {α : Type} (xs ys : List α) (h : xs.Perm ys) (hl : xs.length ≤ 1) :
    xs = ys := by
  match xs with
  | [] => exact (List.nil_perm.mp h).symm
  | [x] => exact (List.singleton_perm.mp h).symm ▸ rfl
  | x::x'::xs => simp at hl

theorem indexedTeam_perm (teams teams' : List TeamState) (h : teams.Perm teams') (i : I64)
    (hc : (teams.filter (fun t => decide (t.teamNum = some i))).length ≤ 1) :
    indexedTeam teams i = indexedTeam teams' i := by
  rw [indexedTeam_last, indexedTeam_last, perm_short _ _ (h.filter _) hc]

theorem translatePlayers_perm (data : UpdateStateData) (players : List UpdateStatePlayer)
    (h : data.players.Perm players) (hid : (data.players.map playerId).Nodup) :
    translatePlayers data = translatePlayers {data with players := players} := by
  have hk : ((data.players.map playerEntry).map Prod.fst).Nodup := by rwa [entry_keys]
  exact congrArg Value.object (insertAll_perm _ _ (h.map playerEntry) hk)

/-- With different ids and at most one team of each number, the frame's
message does not depend on the order of its players and teams. -/
theorem frame_order_irrelevant (data : UpdateStateData) (players : List UpdateStatePlayer)
    (teams : List TeamState) (hp : data.players.Perm players) (ht : data.game.teams.Perm teams)
    (hid : (data.players.map playerId).Nodup)
    (h0 : (data.game.teams.filter (fun t => decide (t.teamNum = some 0))).length ≤ 1)
    (h1 : (data.game.teams.filter (fun t => decide (t.teamNum = some 1))).length ≤ 1) :
    translateUpdateState {data with players := players, game := {data.game with teams := teams}} =
      translateUpdateState data := by
  have hplayers := translatePlayers_perm data players hp hid
  have hteams : translateTeams data.game.teams = translateTeams teams := by
    rw [translateTeams, translateTeams, indexedTeam_perm _ _ ht 0 h0, indexedTeam_perm _ _ ht 1 h1]
  rw [translateUpdateState, translateUpdateState, hplayers, hteams]
  rfl

def bareTeam (number : Option I64) (name : String) : TeamState := ⟨some name,number,none,none,none,[]⟩

theorem two_teams_swapped :
    translateUpdateState {bareFrame [barePlayer "B" (some 0) [],barePlayer "A" (some 1) []] with
      game := {UpdateStateGame.default with
        teams := [bareTeam none "C",bareTeam (some 1) "O",bareTeam (some 0) "B"]}} =
    translateUpdateState {bareFrame [barePlayer "A" (some 1) [],barePlayer "B" (some 0) []] with
      game := {UpdateStateGame.default with
        teams := [bareTeam (some 1) "O",bareTeam (some 0) "B",bareTeam none "C"]}} :=
  frame_order_irrelevant {bareFrame [barePlayer "A" (some 1) [],barePlayer "B" (some 0) []] with
    game := {UpdateStateGame.default with
      teams := [bareTeam (some 1) "O",bareTeam (some 0) "B",bareTeam none "C"]}}
    _ _ (.swap _ _ _) ((List.Perm.swap _ _ _).cons _ |>.trans (.swap _ _ _)) (by decide) (by decide)
    (by decide)

/-! ## Entries on their own -/

/-- The key is the id, and the id is that of the entry's name and shortcut. -/
def SelfConsistent (k : String) (entry : Value) : Prop :=
  entry.get "id" = some (.string k) ∧ ∃ name s, entry.get "name" = some (.string name) ∧
    entry.get "shortcut" = some (.ofI64 s) ∧
    entry.get "id" = some (.string (formatPlayerId name s))

theorem payload_id (p : UpdateStatePlayer) (k : String) :
    (playerPayload p k).get "id" = some (.string k) := by
  simp [playerPayload, Value.get_ofMembers, lookup_entry]

theorem payload_name (p : UpdateStatePlayer) (k : String) :
    (playerPayload p k).get "name" = some (.string (playerName p)) := by
  simp [playerPayload, Value.get_ofMembers, lookup_entry, playerName]

theorem payload_shortcut (p : UpdateStatePlayer) (k : String) :
    (playerPayload p k).get "shortcut" = some (.ofI64 (p.shortcut.getD 0)) := by
  simp [playerPayload, Value.get_ofMembers, lookup_entry]

theorem ofI64_injective (i j : I64) (h : Value.ofI64 i = Value.ofI64 j) : i = j := by
  simp only [Value.ofI64, Value.number.injEq] at h
  have hi := Number.asI64_ofI64 i
  rw [h, Number.asI64_ofI64] at hi
  exact (Option.some.inj hi).symm

theorem payload_selfConsistent_iff (p : UpdateStatePlayer) :
    SelfConsistent (playerId p) (playerPayload p (playerId p)) ↔
      ¬ Named p ∨ p.shortcut.getD 0 = effectiveShortcut p := by
  constructor
  · rintro ⟨_,name,s,hname,hs,hid⟩
    rw [payload_name, Option.some.injEq, Value.string.injEq] at hname
    rw [payload_shortcut, Option.some.injEq] at hs
    rw [payload_id, Option.some.injEq, Value.string.injEq] at hid
    subst hname
    by_cases hn : Named p
    · have hinj := formatPlayerId_named_injective _ _ _ _ hn hn hid
      exact .inr ((ofI64_injective _ _ hs).trans hinj.2.symm)
    · exact .inl hn
  · intro h
    refine ⟨payload_id _ _,_,_,payload_name _ _,payload_shortcut _ _,?_⟩
    rw [payload_id]
    congr 2
    rcases h with hn | hs
    · have hn := not_not.mp hn
      exact (formatPlayerId_blank _ _ hn).trans (formatPlayerId_blank _ _ hn).symm
    · rw [hs]
      rfl

/-- Every named player whose shortcut comes from another member and is not 0
is followed by one of his name who has that shortcut as his own field. -/
def ShortcutsReported (players : List UpdateStatePlayer) : Prop :=
  ∀ before p after name i, players = before++p::after → p.name = some name →
    trim name.toList ≠ [] → p.shortcut = none →
    firstI64 p.extra ["Shortcut","shortcut"] = some i → i ≠ 0 →
    ∃ q ∈ after, q.name = some name ∧ q.shortcut = some i

theorem payload_of_key (data : UpdateStateData) (k : String) (v : Value)
    (h : (playersObject data).lookup k = some v) :
    ∃ before p after, data.players = before++p::after ∧ k = playerId p ∧ v = playerPayload p k ∧
      ∀ q ∈ after, playerId q ≠ k := by
  rw [playersObject_lookup] at h
  obtain ⟨before,after,he,hk⟩ := lookup_reverse_split _ _ _ h
  obtain ⟨ps,rest,hps,rfl,hrest⟩ := List.map_eq_append_iff.mp he
  obtain ⟨p,qs,rfl,hp,rfl⟩ := List.map_eq_cons_iff.mp hrest
  obtain ⟨rfl,rfl⟩ := Prod.mk.inj hp
  refine ⟨ps,p,qs,hps,rfl,rfl,?_⟩
  intro q hq he
  rw [entry_keys] at hk
  exact hk (he ▸ List.mem_map_of_mem hq)

/-- From a player on, his key is last taken by him or by a later one. -/
theorem key_from_player (data : UpdateStateData) (before after : List UpdateStatePlayer)
    (p : UpdateStatePlayer) (h : data.players = before++p::after) :
    ∃ q ∈ p::after, playerId q = playerId p ∧
      (playersObject data).lookup (playerId p) = some (playerPayload q (playerId q)) := by
  have hmem : playerEntry p ∈ ((p::after).map playerEntry).reverse := by simp
  obtain ⟨v,hv⟩ := Option.ne_none_iff_exists'.mp (lookup_ne_none _ _ hmem)
  obtain ⟨q,hq,he⟩ := List.mem_map.mp (List.mem_reverse.mp (mem_of_lookup _ _ _ hv))
  obtain ⟨hid,rfl⟩ := Prod.mk.inj he
  refine ⟨q,hq,hid,?_⟩
  rw [playersObject_lookup, h, List.map_append, List.reverse_append, List.lookup_append]
  exact congrArg (Option.or · _) hv

theorem effectiveShortcut_collected (p : UpdateStatePlayer) (i : I64) (hs : p.shortcut = none)
    (hi : firstI64 p.extra ["Shortcut","shortcut"] = some i) : effectiveShortcut p = i := by
  simp [effectiveShortcut, hs, hi]

theorem playerName_some (p : UpdateStatePlayer) (name : String) (h : playerName p = name)
    (hn : trim name.toList ≠ []) : p.name = some name := by
  cases hp : p.name with
  | some n => exact congrArg some (by simpa [playerName, hp] using h)
  | none =>
    have hempty : name = "" := by simpa [playerName, hp] using h.symm
    rw [hempty] at hn
    exact absurd rfl hn

theorem consistent_of_reported (data : UpdateStateData) (h : ShortcutsReported data.players)
    (k : String) (v : Value) (hv : (playersObject data).lookup k = some v) :
    SelfConsistent k v := by
  obtain ⟨before,p,after,hsplit,rfl,rfl,hlast⟩ := payload_of_key data k v hv
  rw [payload_selfConsistent_iff]
  by_cases hn : Named p
  swap
  · exact .inl hn
  right
  cases hs : p.shortcut with
  | some s => simp [effectiveShortcut, hs]
  | none =>
    cases hx : firstI64 p.extra ["Shortcut","shortcut"] with
    | none => simp [effectiveShortcut, hs, hx]
    | some i =>
      rw [effectiveShortcut_collected p i hs hx]
      by_contra hi
      have hname : p.name = some (playerName p) := playerName_some p _ rfl hn
      obtain ⟨q,hq,hqn,hqs⟩ := h before p after _ i hsplit hname hn hs hx (Ne.symm hi)
      apply hlast q hq
      rw [playerId_named q _ i hqn hqs, playerId, effectiveShortcut_collected p i hs hx]
      rfl

theorem reported_of_consistent (data : UpdateStateData)
    (h : ∀ k v, (playersObject data).lookup k = some v → SelfConsistent k v) :
    ShortcutsReported data.players := by
  intro before p after name i hsplit hname hn hs hx hi
  have hpn : playerName p = name := by simp [playerName, hname]
  have hnp : Named p := by rwa [Named, hpn]
  obtain ⟨q,hq,hid,hl⟩ := key_from_player data before after p hsplit
  have hc := h _ _ hl
  rw [← hid, payload_selfConsistent_iff] at hc
  have hnq : Named q := by
    intro hb
    rw [playerId_blank q hb] at hid
    exact formatPlayerId_named_ne_blank _ _ hnp hid.symm
  obtain ⟨hnames,hshorts⟩ := formatPlayerId_named_injective _ _ _ _ hnq hnp hid
  rw [effectiveShortcut_collected p i hs hx] at hshorts
  have hqs : q.shortcut.getD 0 = i := (hc.resolve_left (not_not.mpr hnq)).trans hshorts
  rcases List.mem_cons.mp hq with rfl | hq
  · rw [hs] at hqs
    exact absurd hqs.symm hi
  · refine ⟨q,hq,playerName_some q name (hnames.trans hpn) hn,?_⟩
    cases hsq : q.shortcut with
    | some s => simpa [hsq] using hqs
    | none =>
      rw [hsq] at hqs
      exact absurd hqs.symm hi

/-- Every entry stands under its id. All entries agree with their own names
and shortcuts when the shortcuts that ids took from other members are
reported, and only then. -/
theorem entries_selfConsistent_iff (data : UpdateStateData) :
    ∃ m, valueAt (translateUpdateState data) [.key "players"] = some (.object m) ∧
      (∀ k v, m.lookup k = some v → v.get "id" = some (.string k)) ∧
      ((∀ k v, m.lookup k = some v → SelfConsistent k v) ↔ ShortcutsReported data.players) := by
  refine ⟨playersObject data,players_of_frame data,?_,?_⟩
  · intro k v hv
    obtain ⟨_,p,_,_,_,rfl,_⟩ := payload_of_key data k v hv
    exact payload_id p k
  · exact ⟨reported_of_consistent data,consistent_of_reported data⟩

/-- The shortcut 1 under the lower-case name goes into the id only. -/
theorem collected_shortcut_unreported : ∃ data entry,
    UpdateStateData.codec.de (.object [("Players",.array
      [.object [("Name",.string "A"),("shortcut",.ofI64 1)]])]) = some data ∧
    valueAt (translateUpdateState data) [.key "players",.key "A_1"] = some entry ∧
    entry.get "id" = some (.string "A_1") ∧ entry.get "name" = some (.string "A") ∧
    entry.get "shortcut" = some (.ofI64 0) ∧ formatPlayerId "A" 0 ≠ "A_1" := by
  have hid : playerId (barePlayer "A" none [("shortcut",.ofI64 1)]) = "A_1" := by decide
  refine ⟨bareFrame [barePlayer "A" none [("shortcut",.ofI64 1)]],
    playerPayload (barePlayer "A" none [("shortcut",.ofI64 1)]) "A_1",rfl,?_,payload_id _ _,
    payload_name _ _,payload_shortcut _ _,by decide⟩
  obtain ⟨q,hq,_,hv⟩ := player_key (bareFrame [barePlayer "A" none [("shortcut",.ofI64 1)]]) _
    (List.mem_singleton_self _)
  rw [List.mem_singleton.mp hq, hid] at hv
  exact hv

end RlStatsApi.FrameEntries
