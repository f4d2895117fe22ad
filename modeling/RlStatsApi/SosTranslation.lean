import RlStatsApi.EventParsing
import RlStatsApi.EventValues

/-!
# Translation to SOS messages

Events that SOS knows become its messages, a countdown two of them; every
other event passes through under its own name. Players are entered into a
frame's object under their ids, and absent quantities become the defaults of
SOS. Translating never fails.
-/

set_option autoImplicit false

namespace RlStatsApi.SosTranslation
open RlStatsApi.TextLines RlStatsApi.DecimalText RlStatsApi.BinaryFloat RlStatsApi.JsonValue
open RlStatsApi.SerdeCodec RlStatsApi.EventData RlStatsApi.EventValues RlStatsApi.Error
open RlStatsApi.EventParsing

structure SosEnvelope where
  event : String
  data : Value

def sosVersion : String := "1.6.0-beta.6-rlstatsapi"

def sosVersionEnvelope : SosEnvelope := ⟨"sos:version",.string sosVersion⟩

def optionalText (text : Option String) : Value := text.elim .null .string

def roundToI64 (x : F64) : I64 := castI64 (Datum.halfAway binary64) x

def firstI64 (map : Members) (keys : List String) : Option I64 :=
  firstValue (fun v => v.asI64.or (v.asStr.bind parseI64)) map keys

def valueToF64 (value : Option Value) : Option F64 := value.bind valueAsF64

/-- An empty or blank id counts as missing. -/
def normalizedMatchGuid (matchGuid : Option String) : Option String :=
  matchGuid.filter (fun guid => decide (trim guid.toList ≠ []))

def formatPlayerId (name : String) (shortcut : I64) : String :=
  if trim name.toList = [] then "" else name++"_"++String.ofList (signedText shortcut.val)

def playerRefShortcut (player : PlayerRef) : Option I64 :=
  (firstI64 player.extra ["Shortcut","shortcut"]).or
    (if player.shortcut ≠ 0 then some player.shortcut else none)

def playerRefId (player : PlayerRef) : String :=
  formatPlayerId player.name ((playerRefShortcut player).getD 0)

def targetRefValue (target : PlayerRef) : String :=
  if (playerRefShortcut target).isSome = true then playerRefId target else target.name

/-! ## Locations -/

def vector3Value (x y z : F64) : Value :=
  .ofMembers [("X",.ofF64 x),("Y",.ofF64 y),("Z",.ofF64 z)]

def locationValue (x y z pitch roll yaw : F64) : Value :=
  .ofMembers [("X",.ofF64 x),("Y",.ofF64 y),("Z",.ofF64 z),("pitch",.ofF64 pitch),
    ("roll",.ofF64 roll),("yaw",.ofF64 yaw)]

def coordinate (object : Members) (key : String) : F64 :=
  (valueToF64 (object.lookup key)).getD f64Zero

def vector3FromObject (object : Members) : Value :=
  vector3Value (coordinate object "X") (coordinate object "Y") (coordinate object "Z")

def locationFromObject (object : Members) : Value :=
  locationValue (coordinate object "X") (coordinate object "Y") (coordinate object "Z")
    (coordinate object "pitch") (coordinate object "roll") (coordinate object "yaw")

/-- The location object of the members, under either of its names. -/
def extractWith (build : Members → Value) (origin : Value) (extra : Option Members) : Value :=
  match extra with
  | none => origin
  | some extra =>
    match ["Location","location"].findSome? (fun key => (extra.lookup key).bind Value.asObject) with
    | some object => build object
    | none => origin

def extractBallLocation : Option Members → Value :=
  extractWith vector3FromObject (vector3Value f64Zero f64Zero f64Zero)

def extractLocation : Option Members → Value :=
  extractWith locationFromObject
    (locationValue f64Zero f64Zero f64Zero f64Zero f64Zero f64Zero)

/-! ## Frames -/

def playerPayload (player : UpdateStatePlayer) (playerId : String) : Value :=
  .ofMembers [
    ("name",.string (player.name.getD "")),
    ("id",.string playerId),
    ("primaryID",.string (player.primaryId.getD "")),
    ("team",.ofI64 (player.teamNum.getD 0)),
    ("score",.ofI64 (player.score.getD 0)),
    ("goals",.ofI64 (player.goals.getD 0)),
    ("shots",.ofI64 (player.shots.getD 0)),
    ("assists",.ofI64 (player.assists.getD 0)),
    ("saves",.ofI64 (player.saves.getD 0)),
    ("touches",.ofI64 (player.touches.getD 0)),
    ("cartouches",.ofI64 (player.carTouches.getD 0)),
    ("demos",.ofI64 (player.demos.getD 0)),
    ("boost",.ofI64 ((effectiveBoost player).getD 0)),
    ("speed",.ofI64 (((effectiveSpeed player).map roundToI64).getD 0)),
    ("hasCar",.bool (player.bHasCar.getD false)),
    ("isSonic",.bool ((effectiveSupersonic player).getD false)),
    ("isPowersliding",.bool (player.bPowersliding.getD false)),
    ("isDead",.bool (player.bDemolished.getD false)),
    ("attacker",.string ((player.attacker.map PlayerRef.name).getD "")),
    ("shortcut",.ofI64 (player.shortcut.getD 0)),
    ("onGround",.bool (player.bOnGround.getD false)),
    ("onWall",.bool (player.bOnWall.getD false)),
    ("location",extractLocation (some player.extra))]

def effectiveShortcut (player : UpdateStatePlayer) : I64 :=
  (player.shortcut.or (firstI64 player.extra ["Shortcut","shortcut"])).getD 0

def playerId (player : UpdateStatePlayer) : String :=
  formatPlayerId (player.name.getD "") (effectiveShortcut player)

def translatePlayers (data : UpdateStateData) : Value :=
  .ofMembers (data.players.map (fun player =>
    (playerId player,playerPayload player (playerId player))))

/-- The last team of a number. -/
def indexedTeam (teams : List TeamState) (i : I64) : Option TeamState :=
  teams.foldl (fun found team => if team.teamNum = some i then some team else found) none

def teamPayload (team : Option TeamState) (name primary secondary : String) : Value :=
  .ofMembers [
    ("name",.string ((team.bind TeamState.name).getD name)),
    ("score",.ofI64 ((team.bind TeamState.score).getD 0)),
    ("color_primary",.string ((team.bind TeamState.colorPrimary).getD primary)),
    ("color_secondary",.string ((team.bind TeamState.colorSecondary).getD secondary))]

def translateTeams (teams : List TeamState) : Value :=
  .array [teamPayload (indexedTeam teams 0) "Blue" "1873FF" "E5E5E5",
    teamPayload (indexedTeam teams 1) "Orange" "C26418" "E5E5E5"]

def noTeam : I64 := ⟨255,by decide,by decide⟩

def translateUpdateState (data : UpdateStateData) : Value :=
  let game := data.game
  .ofMembers [
    ("match_guid",optionalText (normalizedMatchGuid data.matchGuid)),
    ("hasGame",.bool true),
    ("game",.ofMembers [
      ("arena",.string (game.arena.getD "")),
      ("time",.ofI64 (game.timeSeconds.getD 0)),
      ("time_seconds",.ofI64 (game.timeSeconds.getD 0)),
      ("isOT",.bool (game.bOvertime.getD false)),
      ("isReplay",.bool (game.bReplay.getD false)),
      ("hasWinner",.bool (game.bHasWinner.getD false)),
      ("winner",.string (game.winner.getD "")),
      ("hasTarget",.bool (game.bHasTarget.getD false)),
      ("target",.string ((game.target.map targetRefValue).getD "")),
      ("ball",.ofMembers [
        ("location",extractBallLocation (game.ball.map BallState.extra)),
        ("speed",.ofI64 (((game.ball.bind BallState.speed).map roundToI64).getD 0)),
        ("team",.ofI64 ((game.ball.bind BallState.teamNum).getD noTeam))]),
      ("teams",translateTeams game.teams)]),
    ("players",translatePlayers data)]

/-! ## Events -/

def matchGuidPayload (data : MatchOnlyData) : Value :=
  .ofMembers [("match_guid",optionalText (normalizedMatchGuid data.matchGuid))]

def normalizeStatfeedEventName (eventName typeLabel : String) : String :=
  if eqIgnoreAsciiCase eventName.toList "demolition".toList = true ∨
      (eventName = "" ∧ eqIgnoreAsciiCase typeLabel.toList "demolish".toList = true) then
    "Demolish"
  else eventName

def noTargetTeam : I64 := ⟨-1,by decide,by decide⟩

def statfeedTarget (name id : String) (teamNum : I64) : Value :=
  .ofMembers [("name",.string name),("id",.string id),("team_num",.ofI64 teamNum)]

def statfeedSecondaryTarget : Option PlayerRef → Value
  | some player => statfeedTarget player.name (playerRefId player) player.teamNum
  | none => statfeedTarget "" "" noTargetTeam

def scorerPayload (player : PlayerRef) : Value :=
  .ofMembers [("name",.string player.name),("id",.string (playerRefId player)),
    ("teamnum",.ofI64 player.teamNum)]

def assisterPayload : Option PlayerRef → Value
  | some player => scorerPayload player
  | none => .ofMembers [("name",.string ""),("id",.string ""),("teamnum",.null)]

def ballHitPayload (data : BallHitData) : Value :=
  let player := data.players.head?
  .ofMembers [
    ("match_guid",optionalText (normalizedMatchGuid data.matchGuid)),
    ("player",.ofMembers [
      ("name",.string ((player.map PlayerRef.name).getD "")),
      ("id",.string ((player.map playerRefId).getD ""))]),
    ("ball",.ofMembers [
      ("location",vector3Value data.ball.location.x data.ball.location.y data.ball.location.z),
      ("pre_hit_speed",.ofI64 (roundToI64 data.ball.preHitSpeed)),
      ("post_hit_speed",.ofI64 (roundToI64 data.ball.postHitSpeed))])]

def statfeedPayload (data : StatfeedEventData) : Value :=
  .ofMembers [
    ("match_guid",optionalText (normalizedMatchGuid data.matchGuid)),
    ("event_name",.string (normalizeStatfeedEventName data.eventName data.typeLabel)),
    ("type",.string data.typeLabel),
    ("main_target",statfeedTarget data.mainTarget.name (playerRefId data.mainTarget)
      data.mainTarget.teamNum),
    ("secondary_target",statfeedSecondaryTarget data.secondaryTarget)]

def goalScoredPayload (data : GoalScoredData) : Value :=
  .ofMembers [
    ("match_guid",optionalText (normalizedMatchGuid data.matchGuid)),
    ("goalspeed",.ofI64 (roundToI64 data.goalSpeed)),
    ("goaltime",.ofF64 data.goalTime),
    ("impact_location",.ofMembers [("X",.ofF64 data.impactLocation.x),
      ("Y",.ofF64 data.impactLocation.y)]),
    ("scorer",scorerPayload data.scorer),
    ("assister",assisterPayload data.assister),
    ("ball_last_touch",.ofMembers [
      ("player",.string (playerRefId data.ballLastTouch.player)),
      ("speed",.ofI64 (roundToI64 data.ballLastTouch.speed))])]

def matchEndedPayload (data : MatchEndedData) : Value :=
  .ofMembers [
    ("match_guid",optionalText (normalizedMatchGuid data.matchGuid)),
    ("winner_team_num",.ofI64 data.winnerTeamNum),
    ("no_contest",.bool data.isNoContest)]

def replayCreatedPayload (data : ReplayCreatedData) : Value :=
  .ofMembers [
    ("match_guid",optionalText (normalizedMatchGuid data.matchGuid)),
    ("file_name",.string data.fileName),
    ("date",.string data.date)]

def passthroughEnvelope (event : StatsEvent) : Outcome SosEnvelope :=
  (statsEventToValue event).map (fun value =>
    ⟨((value.get "event").bind Value.asStr).getD "Unknown",(value.get "data").getD .null⟩)

def translateStatsEvent (event : StatsEvent) : Outcome (List SosEnvelope) :=
  match event with
  | .matchCreated data => .ok [⟨"game:match_created",matchGuidPayload data⟩]
  | .matchInitialized data => .ok [⟨"game:initialized",matchGuidPayload data⟩]
  | .countdownBegin data =>
    .ok [⟨"game:pre_countdown_begin",matchGuidPayload data⟩,
      ⟨"game:post_countdown_begin",matchGuidPayload data⟩]
  | .updateState data => .ok [⟨"game:update_state",translateUpdateState data⟩]
  | .ballHit data => .ok [⟨"game:ball_hit",ballHitPayload data⟩]
  | .statfeedEvent data => .ok [⟨"game:statfeed_event",statfeedPayload data⟩]
  | .goalScored data => .ok [⟨"game:goal_scored",goalScoredPayload data⟩]
  | .goalReplayStart data => .ok [⟨"game:replay_start",matchGuidPayload data⟩]
  | .goalReplayWillEnd data => .ok [⟨"game:replay_will_end",matchGuidPayload data⟩]
  | .goalReplayEnd data => .ok [⟨"game:replay_end",matchGuidPayload data⟩]
  | .matchEnded data => .ok [⟨"game:match_ended",matchEndedPayload data⟩]
  | .podiumStart data => .ok [⟨"game:podium_start",matchGuidPayload data⟩]
  | .matchDestroyed data => .ok [⟨"game:match_destroyed",matchGuidPayload data⟩]
  | .replayCreated data => .ok [⟨"game:replay_created",replayCreatedPayload data⟩]
  | .roundStarted _ => .ok [⟨"game:round_started_go",.string "game_round_started_go"⟩]
  | other => (passthroughEnvelope other).map (fun envelope => [envelope])

/-- Every event is translated. -/
theorem translateStatsEvent_ok (event : StatsEvent) :
    ∃ envelopes, translateStatsEvent event = .ok envelopes := by
  cases event <;> exact ⟨_,rfl⟩

end RlStatsApi.SosTranslation
