import RlStatsApi.EventParsing
import RlStatsApi.TextLines

/-!
# Event filters

A filter is a set of kinds and up to four conditions, and an event passes
when it meets all that are given. Whether an event has a team or a player is
decided by one table a condition, with no entry for the events that are not
listed. A crossbar hit names a player, but stands in none of the tables.
-/

set_option autoImplicit false

namespace RlStatsApi.EventFilters
open RlStatsApi.TextLines RlStatsApi.JsonValue RlStatsApi.EventData RlStatsApi.EventParsing

inductive EventKind where
  | updateState
  | ballHit
  | boostPickup
  | clockUpdatedSeconds
  | countdownBegin
  | crossbarHit
  | goalReplayEnd
  | goalReplayStart
  | goalReplayWillEnd
  | goalScored
  | matchCreated
  | matchInitialized
  | matchDestroyed
  | matchEnded
  | matchPaused
  | matchUnpaused
  | playerJoined
  | playerLeft
  | podiumStart
  | replayCreated
  | roundStarted
  | statfeedEvent
  | unknown
  deriving DecidableEq

def EventKind.ofEvent : StatsEvent → EventKind
  | .updateState _ => .updateState
  | .ballHit _ => .ballHit
  | .boostPickup _ => .boostPickup
  | .clockUpdatedSeconds _ => .clockUpdatedSeconds
  | .countdownBegin _ => .countdownBegin
  | .crossbarHit _ => .crossbarHit
  | .goalReplayEnd _ => .goalReplayEnd
  | .goalReplayStart _ => .goalReplayStart
  | .goalReplayWillEnd _ => .goalReplayWillEnd
  | .goalScored _ => .goalScored
  | .matchCreated _ => .matchCreated
  | .matchInitialized _ => .matchInitialized
  | .matchDestroyed _ => .matchDestroyed
  | .matchEnded _ => .matchEnded
  | .matchPaused _ => .matchPaused
  | .matchUnpaused _ => .matchUnpaused
  | .playerJoined _ => .playerJoined
  | .playerLeft _ => .playerLeft
  | .podiumStart _ => .podiumStart
  | .replayCreated _ => .replayCreated
  | .roundStarted _ => .roundStarted
  | .statfeedEvent _ => .statfeedEvent
  | .unknown _ => .unknown

/-- The kinds are a set: their order and repetitions do not matter. -/
structure EventFilter where
  kinds : List EventKind := []
  playerName : Option String := none
  playerPrimaryId : Option String := none
  teamNum : Option I64 := none
  matchGuid : Option String := none

def EventFilter.new : EventFilter := {}

section Builder

variable (filter : EventFilter)

def EventFilter.includeKind (kind : EventKind) : EventFilter :=
  {filter with kinds := kind::filter.kinds}

def EventFilter.includeKinds (kinds : List EventKind) : EventFilter :=
  {filter with kinds := kinds++filter.kinds}

def EventFilter.withPlayerName (playerName : String) : EventFilter :=
  {filter with playerName := some playerName}

def EventFilter.withPlayerPrimaryId (playerPrimaryId : String) : EventFilter :=
  {filter with playerPrimaryId := some playerPrimaryId}

def EventFilter.withTeamNum (teamNum : I64) : EventFilter := {filter with teamNum := some teamNum}

def EventFilter.withMatchGuid (matchGuid : String) : EventFilter :=
  {filter with matchGuid := some matchGuid}

end Builder

/-! ## The tables -/

def eventMatchGuid : StatsEvent → Option String
  | .updateState d => d.matchGuid
  | .ballHit d => d.matchGuid
  | .boostPickup d => d.matchGuid
  | .clockUpdatedSeconds d => d.matchGuid
  | .countdownBegin d => d.matchGuid
  | .crossbarHit d => d.matchGuid
  | .goalReplayEnd d => d.matchGuid
  | .goalReplayStart d => d.matchGuid
  | .goalReplayWillEnd d => d.matchGuid
  | .goalScored d => d.matchGuid
  | .matchCreated d => d.matchGuid
  | .matchInitialized d => d.matchGuid
  | .matchDestroyed d => d.matchGuid
  | .matchEnded d => d.matchGuid
  | .matchPaused d => d.matchGuid
  | .matchUnpaused d => d.matchGuid
  | .playerJoined d => d.matchGuid
  | .playerLeft d => d.matchGuid
  | .podiumStart d => d.matchGuid
  | .replayCreated d => d.matchGuid
  | .roundStarted d => d.matchGuid
  | .statfeedEvent d => d.matchGuid
  | .unknown u =>
    (((u.data.get "MatchGuid").or (u.data.get "matchGuid")).or (u.data.get "match_guid")).bind
      Value.asStr

def eventHasTeam (event : StatsEvent) (expectedTeam : I64) : Bool :=
  match event with
  | .updateState d =>
    d.players.any (fun player => player.teamNum = some expectedTeam) ||
      d.game.teams.any (fun team => team.teamNum = some expectedTeam)
  | .goalScored d =>
    d.scorer.teamNum = expectedTeam ||
      d.assister.any (fun assister => assister.teamNum = expectedTeam) ||
      d.ballLastTouch.player.teamNum = expectedTeam
  | .ballHit d => d.players.any (fun player => player.teamNum = expectedTeam)
  | .boostPickup d => d.player.teamNum = expectedTeam
  | .statfeedEvent d =>
    d.mainTarget.teamNum = expectedTeam ||
      d.secondaryTarget.any (fun target => target.teamNum = expectedTeam)
  | .matchEnded d => d.winnerTeamNum = expectedTeam
  | _ => false

def sameName (name expectedName : String) : Bool :=
  eqIgnoreAsciiCase name.toList expectedName.toList

def eventHasPlayerName (event : StatsEvent) (expectedName : String) : Bool :=
  match event with
  | .updateState d =>
    d.players.any (fun player => player.name.any (fun name => sameName name expectedName))
  | .goalScored d =>
    sameName d.scorer.name expectedName ||
      d.assister.any (fun assister => sameName assister.name expectedName) ||
      sameName d.ballLastTouch.player.name expectedName
  | .ballHit d => d.players.any (fun player => sameName player.name expectedName)
  | .boostPickup d => sameName d.player.name expectedName
  | .playerJoined d => sameName d.playerName expectedName
  | .playerLeft d => sameName d.playerName expectedName
  | .statfeedEvent d =>
    sameName d.mainTarget.name expectedName ||
      d.secondaryTarget.any (fun target => sameName target.name expectedName)
  | _ => false

def eventHasPlayerPrimaryId (event : StatsEvent) (expectedPrimaryId : String) : Bool :=
  match event with
  | .updateState d =>
    d.players.any (fun player =>
      player.primaryId.any (fun primaryId => primaryId = expectedPrimaryId))
  | .playerJoined d => d.primaryId = expectedPrimaryId
  | .playerLeft d => d.primaryId = expectedPrimaryId
  | _ => false

def EventFilter.matches (filter : EventFilter) (event : StatsEvent) : Bool :=
  (filter.kinds.isEmpty || filter.kinds.contains (.ofEvent event)) &&
  filter.matchGuid.all (fun guid => (eventMatchGuid event).any (fun g => g = guid)) &&
  filter.teamNum.all (eventHasTeam event) &&
  filter.playerName.all (eventHasPlayerName event) &&
  filter.playerPrimaryId.all (eventHasPlayerPrimaryId event)

@[simp] theorem matches_team (event : StatsEvent) (t : I64) :
    (EventFilter.new.withTeamNum t).matches event = eventHasTeam event t := by
  simp [EventFilter.matches, EventFilter.new, EventFilter.withTeamNum]

@[simp] theorem matches_name (event : StatsEvent) (n : String) :
    (EventFilter.new.withPlayerName n).matches event = eventHasPlayerName event n := by
  simp [EventFilter.matches, EventFilter.new, EventFilter.withPlayerName]

/-! ## Participants -/

/-- The references to players in the payload of an event. -/
def playerRefs : StatsEvent → List PlayerRef
  | .updateState d => d.game.target.toList++d.players.filterMap UpdateStatePlayer.attacker
  | .ballHit d => d.players
  | .boostPickup d => [d.player]
  | .crossbarHit d => [d.ballLastTouch.player]
  | .goalScored d => d.scorer::d.ballLastTouch.player::d.assister.toList
  | .statfeedEvent d => d.mainTarget::d.secondaryTarget.toList
  | _ => []

theorem sameName_symm (name other : String) (h : sameName name other = true) :
    sameName other name = true := by
  simp only [sameName, eqIgnoreAsciiCase, beq_iff_eq] at h ⊢
  exact h.symm

/-- The tables find a player reference that satisfies their test. -/
theorem tables_find (event : StatsEvent) (r : PlayerRef) (hr : r ∈ playerRefs event)
    (hu : EventKind.ofEvent event ≠ .updateState) (hc : EventKind.ofEvent event ≠ .crossbarHit)
    (n : String) (hn : sameName r.name n = true) :
    eventHasPlayerName event n = true ∧ eventHasTeam event r.teamNum = true := by
  cases event with
  | updateState d => exact absurd rfl hu
  | crossbarHit d => exact absurd rfl hc
  | ballHit d =>
    simp only [eventHasPlayerName, eventHasTeam, List.any_eq_true, decide_eq_true_eq]
    exact ⟨⟨r,hr,hn⟩,⟨r,hr,rfl⟩⟩
  | boostPickup d =>
    cases List.mem_singleton.mp hr
    simp [eventHasPlayerName, eventHasTeam, hn]
  | goalScored d =>
    simp only [playerRefs, List.mem_cons, Option.mem_toList] at hr
    rcases hr with rfl | rfl | hr
    · simp [eventHasPlayerName, eventHasTeam, hn]
    · simp [eventHasPlayerName, eventHasTeam, hn]
    · simp [eventHasPlayerName, eventHasTeam, hr, hn]
  | statfeedEvent d =>
    simp only [playerRefs, List.mem_cons, Option.mem_toList] at hr
    rcases hr with rfl | hr
    · simp [eventHasPlayerName, eventHasTeam, hn]
    · simp [eventHasPlayerName, eventHasTeam, hr, hn]
  | _ => cases hr

/-- Outside of frames an event passes the filters for the name and the team
of each player it refers to, unless it is a crossbar hit. -/
theorem participant_matched_iff (event : StatsEvent) (r : PlayerRef) (hr : r ∈ playerRefs event)
    (hu : EventKind.ofEvent event ≠ .updateState) (n : String) (hn : sameName n r.name = true) :
    ((EventFilter.new.withPlayerName n).matches event = true ∧
      (EventFilter.new.withTeamNum r.teamNum).matches event = true) ↔
    EventKind.ofEvent event ≠ .crossbarHit := by
  rw [matches_name, matches_team]
  constructor
  · intro h hc
    cases event with
    | crossbarHit d => cases h.1
    | _ => cases hc
  · exact fun hc => tables_find event r hr hu hc n (sameName_symm n r.name hn)

def toucher : PlayerRef := ⟨"Alice",1,0,[]⟩

def crossbarEvent : StatsEvent :=
  .crossbarHit ⟨none,.default,f64Zero,f64Zero,⟨toucher,f64Zero,[]⟩,[]⟩

def pickupEvent : StatsEvent := .boostPickup ⟨none,toucher,.default,f64Zero,"",false,[]⟩

theorem pickup_participant_matched :
    ((EventFilter.new.withPlayerName "ALICE").matches pickupEvent = true ∧
      (EventFilter.new.withTeamNum 0).matches pickupEvent = true) ↔
    EventKind.ofEvent pickupEvent ≠ .crossbarHit :=
  participant_matched_iff pickupEvent toucher (by simp [playerRefs, pickupEvent])
    (by simp [pickupEvent, EventKind.ofEvent]) "ALICE" (by decide)

theorem crossbar_toucher_missed :
    toucher ∈ playerRefs crossbarEvent ∧
    (EventFilter.new.withPlayerName "Alice").matches crossbarEvent = false ∧
    (EventFilter.new.withTeamNum 0).matches crossbarEvent = false :=
  ⟨by simp [playerRefs, crossbarEvent],rfl,rfl⟩

end RlStatsApi.EventFilters
