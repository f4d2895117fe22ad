import RlStatsApi.CodecLayout
import RlStatsApi.EventFilters
import RlStatsApi.EventRoundTrip

/-!
# The teams a message mentions

A team number of a typed event stands at a path of the payload. The number
of a player or a team of a frame is absent when its member is; everywhere
else an absent member, or an absent object around it, counts as team 0. So a
team filter finds the numbers that stand at the paths, and team 0 besides
when a path outside of frames ends early.
-/

set_option autoImplicit false

namespace RlStatsApi.TeamMentions
open RlStatsApi.JsonValue RlStatsApi.SerdeCodec RlStatsApi.CodecLayout RlStatsApi.EventData
open RlStatsApi.Error RlStatsApi.EventParsing RlStatsApi.EventRoundTrip RlStatsApi.EventFilters
open RlStatsApi.TextReader

/-! ## Paths to team numbers -/

/-- The team at the end of a path; `assumed` where the path ends early. -/
def teamAt (assumed : Option I64) (v : Value) (path : List Step) : Option I64 :=
  match valueAt v path with
  | none => assumed
  | some w => w.asI64

variable (assumed : Option I64)

theorem teamAt_iff (v : Value) (path : List Step) (t : I64) :
    teamAt assumed v path = some t ↔
      valueAt v path = some (.ofI64 t) ∨ (valueAt v path = none ∧ assumed = some t) := by
  unfold teamAt
  cases h : valueAt v path with
  | none => simp
  | some w =>
    simp only [Option.some.injEq, reduceCtorEq, false_and, or_false]
    constructor
    · intro hw
      cases w with
      | number n => exact congrArg Value.number (Number.ofI64_asI64 n t hw).symm
      | _ => cases hw
    · rintro rfl
      exact Number.asI64_ofI64 t

@[simp] theorem teamAt_key (m : Members) (k : String) (path : List Step) :
    teamAt assumed (.object m) (.key k::path) =
      match m.lookup k with
      | none => assumed
      | some w => teamAt assumed w path := by
  unfold teamAt
  simp only [valueAt, valueStep]
  cases m.lookup k <;> rfl

/-- The paths of a list's team numbers, one an item. -/
def itemPaths (n : ℕ) : List (List Step) := (List.range n).map (fun i => [.item i,.key "TeamNum"])

theorem itemPaths_teams {α : Type} (f : α → Option I64) (xs : List Value) (as : List α)
    (h : List.Forall₂ (fun x a => teamAt assumed x [.key "TeamNum"] = f a) xs as) :
    (itemPaths as.length).filterMap (teamAt assumed (.array xs)) = as.filterMap f := by
  simp only [itemPaths, List.filterMap_map]
  induction h with
  | nil => rfl
  | @cons x a xs as hx _ ih =>
    rw [List.length_cons, List.range_succ_eq_map, List.filterMap_cons, List.filterMap_map,
      List.filterMap_cons]
    have hhead : (teamAt assumed (.array (x::xs)) ∘ fun i => [.item i,.key "TeamNum"]) 0 = f a := hx
    rw [hhead]
    cases f a with
    | none => exact ih
    | some t => exact congrArg (t::·) ih

theorem keyed_teams (m : Members) (k : String) (w : Value) (paths : List (List Step))
    (h : m.lookup k = some w) :
    (paths.map (Step.key k::·)).filterMap (teamAt assumed (.object m)) =
      paths.filterMap (teamAt assumed w) := by
  rw [List.filterMap_map]
  congr 1
  funext path
  simp [h]

theorem listed_teams {α : Type} (k : String) (c : Codec α) (f : α → Option I64) (m : Members)
    (as : List α) (hc : ∀ x a, c.de x = some a → teamAt assumed x [.key "TeamNum"] = f a)
    (h : (FieldCodec.defaulted k (.vec c) []).read m = some as) :
    ((itemPaths as.length).map (Step.key k::·)).filterMap (teamAt assumed (.object m)) =
      as.filterMap f := by
  unfold FieldCodec.read at h
  split at h
  · cases h
    rfl
  · next v hv =>
    cases v with
    | array xs =>
      rw [keyed_teams assumed m k (.array xs) _ hv]
      exact itemPaths_teams assumed f xs as ((mapM_pointwise c.de xs as h).imp hc)
    | _ => cases h

/-! ## Single numbers -/

theorem number_team (k : String) (m : Members) (t : I64)
    (h : (FieldCodec.defaulted k .i64 0).read m = some t) :
    teamAt (some 0) (.object m) [.key k] = some t := by
  unfold FieldCodec.read at h
  rw [teamAt_key]
  cases hk : m.lookup k with
  | none => simpa [FieldCodec.defaulted, hk] using h
  | some w =>
    rw [FieldCodec.defaulted_key, hk] at h
    exact h

theorem optional_team (k : String) (m : Members) (t : Option I64)
    (h : (FieldCodec.defaulted k (.option .i64) none).read m = some t) :
    teamAt none (.object m) [.key k] = t := by
  unfold FieldCodec.read at h
  rw [teamAt_key]
  cases hk : m.lookup k with
  | none => simpa [FieldCodec.defaulted, hk] using h
  | some w =>
    have hw : (Codec.option .i64).de w = some t := by simpa [FieldCodec.defaulted, hk] using h
    by_cases hn : w = .null
    · subst hn
      cases hw
      rfl
    · rw [Codec.option_some _ w hn, Option.map_eq_some_iff] at hw
      obtain ⟨i,hi,rfl⟩ := hw
      exact hi

theorem playerRef_team (v : Value) (r : PlayerRef) (h : PlayerRef.codec.de v = some r) :
    teamAt (some 0) v [.key "TeamNum"] = some r.teamNum := by
  obtain ⟨m,rfl,hm,_⟩ := Record.flattened_read _ _ _ (fun _ => rfl) v r h
  simp only [PlayerRef.record, Record.cons_read] at hm
  exact number_team "TeamNum" m _ hm.2.2.1

/-- An object that is absent holds team 0, as its default does. -/
theorem object_team {α : Type} (k : String) (c : Codec α) (a b : α) (path : List Step)
    (f : α → I64) (m : Members) (ha : f a = 0)
    (hc : ∀ x b, c.de x = some b → teamAt (some 0) x path = some (f b))
    (h : (FieldCodec.defaulted k c a).read m = some b) :
    teamAt (some 0) (.object m) (.key k::path) = some (f b) := by
  unfold FieldCodec.read at h
  rw [teamAt_key]
  split at h
  · next hk =>
    cases h
    simp only [FieldCodec.defaulted_key] at hk
    simp [hk, ha]
  · next v hv =>
    simp only [FieldCodec.defaulted_key] at hv
    simp only [hv]
    exact hc v b h

theorem optional_object_team (k : String) (m : Members) (o : Option PlayerRef)
    (h : (FieldCodec.defaulted k (.option PlayerRef.codec) none).read m = some o) :
    (o.toList.map (fun _ => [Step.key k,.key "TeamNum"])).filterMap (teamAt (some 0) (.object m)) =
      o.toList.map PlayerRef.teamNum := by
  cases o with
  | none => rfl
  | some r =>
    unfold FieldCodec.read at h
    split at h
    · cases h
    · next v hv =>
      simp only [FieldCodec.defaulted_key] at hv
      have hn : v ≠ .null := by
        rintro rfl
        cases h
      have hr : PlayerRef.codec.de v = some r := by
        simpa [Codec.option_some _ v hn] using h
      have ht : teamAt (some 0) (.object m) [.key k,.key "TeamNum"] = some r.teamNum := by
        simpa [hv] using playerRef_team v r hr
      simp [ht]

/-! ## The teams of an event -/

/-- Where an event that was read has its team numbers. -/
def teamPaths : StatsEvent → List (List Step)
  | .updateState d =>
    (itemPaths d.players.length).map (Step.key "Players"::·)++
      ((itemPaths d.game.teams.length).map (Step.key "Teams"::·)).map (Step.key "Game"::·)
  | .goalScored d =>
    [.key "Scorer",.key "TeamNum"]::[.key "BallLastTouch",.key "Player",.key "TeamNum"]::
      d.assister.toList.map (fun _ => [.key "Assister",.key "TeamNum"])
  | .ballHit d => (itemPaths d.players.length).map (Step.key "Players"::·)
  | .boostPickup _ => [[.key "Player",.key "TeamNum"]]
  | .statfeedEvent d =>
    [.key "MainTarget",.key "TeamNum"]::
      d.secondaryTarget.toList.map (fun _ => [.key "SecondaryTarget",.key "TeamNum"])
  | .matchEnded _ => [[.key "WinnerTeamNum"]]
  | _ => []

/-- The team an absent number counts as: none in a frame, 0 elsewhere. -/
def assumedTeam : StatsEvent → Option I64
  | .updateState _ => none
  | _ => some 0

/-- The team numbers of an event in the order of its paths. -/
def eventTeams : StatsEvent → List I64
  | .updateState d =>
    d.players.filterMap UpdateStatePlayer.teamNum++d.game.teams.filterMap TeamState.teamNum
  | .goalScored d =>
    d.scorer.teamNum::d.ballLastTouch.player.teamNum::d.assister.toList.map PlayerRef.teamNum
  | .ballHit d => d.players.map PlayerRef.teamNum
  | .boostPickup d => [d.player.teamNum]
  | .statfeedEvent d => d.mainTarget.teamNum::d.secondaryTarget.toList.map PlayerRef.teamNum
  | .matchEnded d => [d.winnerTeamNum]
  | _ => []

theorem eventHasTeam_iff (e : StatsEvent) (t : I64) : eventHasTeam e t = true ↔ t ∈ eventTeams e := by
  cases e with
  | updateState d => simp [eventHasTeam, eventTeams]
  | goalScored d =>
    simp only [eventHasTeam, eventTeams, Bool.or_eq_true, decide_eq_true_eq, List.mem_cons]
    cases d.assister with
    | none => simp [eq_comm]
    | some r => simp [eq_comm, or_comm, or_left_comm]
  | ballHit d => simp [eventHasTeam, eventTeams]
  | boostPickup d => simp [eventHasTeam, eventTeams, eq_comm]
  | statfeedEvent d =>
    simp only [eventHasTeam, eventTeams, Bool.or_eq_true, decide_eq_true_eq, List.mem_cons]
    cases d.secondaryTarget with
    | none => simp [eq_comm]
    | some r => simp [eq_comm]
  | matchEnded d => simp [eventHasTeam, eventTeams, eq_comm]
  | _ => simp [eventHasTeam, eventTeams]

/-! Each payload holds its event's teams at the event's paths. -/

theorem frame_player_team (v : Value) (r : UpdateStatePlayer)
    (h : UpdateStatePlayer.codec.de v = some r) : teamAt none v [.key "TeamNum"] = r.teamNum := by
  obtain ⟨m,rfl,hm,_⟩ := Record.flattened_read _ _ _ (fun _ => rfl) v r h
  simp only [UpdateStatePlayer.record, Record.cons_read] at hm
  exact optional_team "TeamNum" m _ hm.2.2.2.1

theorem frame_team_team (v : Value) (r : TeamState) (h : TeamState.codec.de v = some r) :
    teamAt none v [.key "TeamNum"] = r.teamNum := by
  obtain ⟨m,rfl,hm,_⟩ := Record.flattened_read _ _ _ (fun _ => rfl) v r h
  simp only [TeamState.record, Record.cons_read] at hm
  exact optional_team "TeamNum" m _ hm.2.1

theorem lastTouch_team (v : Value) (r : LastTouch) (h : LastTouch.codec.de v = some r) :
    teamAt (some 0) v [.key "Player",.key "TeamNum"] = some r.player.teamNum := by
  obtain ⟨m,rfl,hm,_⟩ := Record.flattened_read _ _ _ (fun _ => rfl) v r h
  simp only [LastTouch.record, Record.cons_read] at hm
  exact object_team "Player" _ _ _ _ PlayerRef.teamNum m rfl playerRef_team hm.1

theorem game_teams (v : Value) (game : UpdateStateGame) (h : UpdateStateGame.codec.de v = some game) :
    ((itemPaths game.teams.length).map (Step.key "Teams"::·)).filterMap (teamAt none v) =
      game.teams.filterMap TeamState.teamNum := by
  obtain ⟨m,rfl,hm,_⟩ := Record.flattened_read _ _ _ (fun _ => rfl) v game h
  simp only [UpdateStateGame.record, Record.cons_read] at hm
  exact listed_teams none "Teams" _ _ m _ frame_team_team hm.1

theorem frame_teams (v : Value) (d : UpdateStateData) (h : UpdateStateData.codec.de v = some d) :
    (teamPaths (.updateState d)).filterMap (teamAt none v) = eventTeams (.updateState d) := by
  obtain ⟨m,rfl,hm,_⟩ := Record.flattened_read _ _ _ (fun _ => rfl) v d h
  simp only [UpdateStateData.record, Record.cons_read] at hm
  rw [teamPaths, List.filterMap_append]
  congr 1
  · exact listed_teams none "Players" _ _ m _ frame_player_team hm.2.1
  · have hg := hm.2.2.1
    unfold FieldCodec.read at hg
    split at hg
    · have hdef : d.game = .default := (Option.some.inj hg).symm
      rw [hdef]
      rfl
    · next w hw =>
      rw [keyed_teams none m "Game" w _ hw]
      exact game_teams w d.game hg

theorem payload_teams (e : StatsEvent) (p : Payload) (data : Value) (hp : typed e = some p)
    (hd : p.codec.de data = some p.datum) :
    (teamPaths e).filterMap (teamAt (assumedTeam e) data) = eventTeams e := by
  cases e with
  | updateState d =>
    cases hp
    exact frame_teams data d hd
  | goalScored d =>
    cases hp
    obtain ⟨m,rfl,hm,_⟩ := Record.flattened_read _ _ _ (fun _ => rfl) data d hd
    simp only [GoalScoredData.record, Record.cons_read] at hm
    have hscorer := object_team "Scorer" _ _ _ _ PlayerRef.teamNum m rfl playerRef_team
      hm.2.2.2.2.1
    have htouch := object_team "BallLastTouch" _ _ _ _ (fun touch => touch.player.teamNum) m rfl
      lastTouch_team hm.2.2.2.2.2.2.1
    have hassister := optional_object_team "Assister" m _ hm.2.2.2.2.2.1
    simp only [teamPaths, assumedTeam, eventTeams, List.filterMap_cons, hscorer, htouch, hassister]
  | ballHit d =>
    cases hp
    obtain ⟨m,rfl,hm,_⟩ := Record.flattened_read _ _ _ (fun _ => rfl) data d hd
    simp only [BallHitData.record, Record.cons_read] at hm
    have h := listed_teams (some 0) "Players" _ _ m _ playerRef_team hm.2.1
    rw [teamPaths, assumedTeam, h, eventTeams, List.filterMap_eq_map']
    simp
  | boostPickup d =>
    cases hp
    obtain ⟨m,rfl,hm,_⟩ := Record.flattened_read _ _ _ (fun _ => rfl) data d hd
    simp only [BoostPickupData.record, Record.cons_read] at hm
    have h := object_team "Player" _ _ _ _ PlayerRef.teamNum m rfl playerRef_team hm.2.1
    simp only [teamPaths, assumedTeam, eventTeams, List.filterMap_cons, List.filterMap_nil, h]
  | statfeedEvent d =>
    cases hp
    obtain ⟨m,rfl,hm,_⟩ := Record.flattened_read _ _ _ (fun _ => rfl) data d hd
    simp only [StatfeedEventData.record, Record.cons_read] at hm
    have hmain := object_team "MainTarget" _ _ _ _ PlayerRef.teamNum m rfl playerRef_team
      hm.2.2.2.1
    have hsecond := optional_object_team "SecondaryTarget" m _ hm.2.2.2.2.1
    simp only [teamPaths, assumedTeam, eventTeams, List.filterMap_cons, hmain, hsecond]
  | matchEnded d =>
    cases hp
    obtain ⟨m,rfl,hm,_⟩ := Record.flattened_read _ _ _ (fun _ => rfl) data d hd
    simp only [MatchEndedData.record, Record.cons_read] at hm
    have h := number_team "WinnerTeamNum" m _ hm.2.1
    simp only [teamPaths, assumedTeam, eventTeams, List.filterMap_cons, List.filterMap_nil, h]
  | _ => rfl

theorem assumedTeam_iff (e : StatsEvent) (t : I64) :
    assumedTeam e = some t ↔ EventKind.ofEvent e ≠ .updateState ∧ t = 0 := by
  cases e with
  | updateState d => simp [assumedTeam, EventKind.ofEvent]
  | _ => simp [assumedTeam, EventKind.ofEvent, eq_comm]

variable (read : Reader)

/-- A team filter finds the numbers that stand at the event's paths and,
outside of frames, team 0 when a path ends early. -/
theorem team_matched_iff (v : Value) (e : StatsEvent) (t : I64)
    (h : parseStatsEventValue read v = .ok e) :
    ∃ envelope data, EventEnvelope.de v = some envelope ∧
      normalizeEventData read envelope.data = .ok data ∧
      ((EventFilter.new.withTeamNum t).matches e = true ↔
        (∃ path ∈ teamPaths e, valueAt data path = some (.ofI64 t)) ∨
        (t = 0 ∧ EventKind.ofEvent e ≠ .updateState ∧
          ∃ path ∈ teamPaths e, valueAt data path = none)) := by
  unfold parseStatsEventValue at h
  split at h
  · next envelope henv =>
    cases hdata : normalizeEventData read envelope.data with
    | error c => simp [parseEventEnvelope, hdata, Bind.bind, Except.bind] at h
    | ok data =>
      refine ⟨envelope,data,henv,hdata,?_⟩
      have hteams : (teamPaths e).filterMap (teamAt (assumedTeam e) data) = eventTeams e := by
        cases hp : typed e with
        | none =>
          obtain ⟨u,rfl⟩ := typed_none e hp
          rfl
        | some p =>
          obtain ⟨data',hd,hread⟩ := parseEventEnvelope_typed read envelope e p h hp
          cases hdata.symm.trans hd
          exact payload_teams e p data hp hread
      rw [matches_team, eventHasTeam_iff, ← hteams]
      simp only [List.mem_filterMap, teamAt_iff, assumedTeam_iff]
      constructor
      · rintro ⟨path,hpath,hat | ⟨hnone,hkind,ht⟩⟩
        · exact .inl ⟨path,hpath,hat⟩
        · exact .inr ⟨ht,hkind,path,hpath,hnone⟩
      · rintro (⟨path,hpath,hat⟩ | ⟨ht,hkind,path,hpath,hnone⟩)
        · exact ⟨path,hpath,.inl hat⟩
        · exact ⟨path,hpath,.inr ⟨hnone,hkind,ht⟩⟩
  · cases h

theorem winner_matched :
    ∃ envelope data,
      EventEnvelope.de (gameEnvelope "MatchEnded" (.object [("WinnerTeamNum",.ofI64 1)])) =
        some envelope ∧
      normalizeEventData noText envelope.data = .ok data ∧
      ((EventFilter.new.withTeamNum 1).matches (.matchEnded ⟨none,1,[]⟩) = true ↔
        (∃ path ∈ teamPaths (.matchEnded ⟨none,1,[]⟩), valueAt data path = some (.ofI64 1)) ∨
        ((1 : I64) = 0 ∧ EventKind.ofEvent (.matchEnded ⟨none,1,[]⟩) ≠ .updateState ∧
          ∃ path ∈ teamPaths (.matchEnded ⟨none,1,[]⟩), valueAt data path = none)) :=
  team_matched_iff noText _ _ 1 rfl

/-- A payload with no member at all passes the filter for team 0. -/
theorem empty_payload_matched :
    parseStatsEventValue noText (gameEnvelope "MatchEnded" (.object [])) =
      .ok (.matchEnded ⟨none,0,[]⟩) ∧
    (EventFilter.new.withTeamNum 0).matches (.matchEnded ⟨none,0,[]⟩) = true ∧
    ∀ step path, valueAt (.object []) (step::path) = none := by
  refine ⟨rfl,rfl,?_⟩
  intro step path
  cases step <;> rfl

end RlStatsApi.TeamMentions
