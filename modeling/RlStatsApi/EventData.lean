import RlStatsApi.SerdeCodec

/-!
# Event payloads

Every payload of the stats stream is a record with its own keys, defaults
and a map `extra` of the members that no field claims. `Vector3` has no such
map. Only the locations of a hit ball, of a crossbar hit and of a goal's
impact are required. Each payload that is read is read again from what its
codec writes.
-/

set_option autoImplicit false

namespace RlStatsApi.EventData
open RlStatsApi.JsonValue RlStatsApi.SerdeCodec

abbrev f64Zero : F64 := BinaryFloat.zero BinaryFloat.binary64

def matchGuidField : FieldCodec (Option String) := .defaulted "MatchGuid" (.option .string) none

@[simp] theorem matchGuidField_key : matchGuidField.key = "MatchGuid" := rfl

@[simp] theorem matchGuidField_codec : matchGuidField.codec = .option .string := rfl

@[simp] theorem matchGuidField_lawful : matchGuidField.Lawful := by
  simp [matchGuidField]

structure MatchOnlyData where
  matchGuid : Option String
  extra : Members

def MatchOnlyData.record := Record.cons matchGuidField .nil

def MatchOnlyData.codec : Codec MatchOnlyData :=
  MatchOnlyData.record.flattened.via (fun ((g,()),e) => ⟨g,e⟩) (fun d => ((d.matchGuid,()),d.extra))

theorem matchOnlyData_lawful : MatchOnlyData.record.Lawful := by
  repeat refine Record.cons_lawful _ _ (by simp) ?_ (by simp)
  exact Record.nil_lawful

@[simp] theorem matchOnlyData_roundTrips : MatchOnlyData.codec.RoundTrips :=
  Codec.via_roundTrips _ _ _ (fun _ => rfl) (Record.flattened_roundTrips _ matchOnlyData_lawful)

structure Vector3 where
  x : F64
  y : F64
  z : F64

def Vector3.default : Vector3 := ⟨f64Zero,f64Zero,f64Zero⟩

def Vector3.record :=
  Record.cons (.defaulted "X" .f64 f64Zero) <|
  Record.cons (.defaulted "Y" .f64 f64Zero) <|
  Record.cons (.defaulted "Z" .f64 f64Zero) .nil

def Vector3.codec : Codec Vector3 :=
  Vector3.record.plain.via (fun (x,y,z,()) => ⟨x,y,z⟩) (fun d => (d.x,d.y,d.z,()))

theorem vector3_lawful : Vector3.record.Lawful := by
  repeat refine Record.cons_lawful _ _ (by simp) ?_ (by simp)
  exact Record.nil_lawful

@[simp] theorem vector3_roundTrips : Vector3.codec.RoundTrips :=
  Codec.via_roundTrips _ _ _ (fun _ => rfl) (Record.plain_roundTrips _ vector3_lawful)

@[simp] theorem vector3_written_default :
    Vector3.codec.de (Vector3.codec.ser .default) = some .default := rfl

structure PlayerRef where
  name : String
  shortcut : I64
  teamNum : I64
  extra : Members

def PlayerRef.default : PlayerRef := ⟨"",0,0,[]⟩

def PlayerRef.record :=
  Record.cons (.defaulted "Name" .string "") <|
  Record.cons (.defaulted "Shortcut" .i64 0) <|
  Record.cons (.defaulted "TeamNum" .i64 0) .nil

def PlayerRef.codec : Codec PlayerRef :=
  PlayerRef.record.flattened.via (fun ((n,s,t,()),e) => ⟨n,s,t,e⟩)
    (fun d => ((d.name,d.shortcut,d.teamNum,()),d.extra))

theorem playerRef_lawful : PlayerRef.record.Lawful := by
  repeat refine Record.cons_lawful _ _ (by simp) ?_ (by simp)
  exact Record.nil_lawful

@[simp] theorem playerRef_roundTrips : PlayerRef.codec.RoundTrips :=
  Codec.via_roundTrips _ _ _ (fun _ => rfl) (Record.flattened_roundTrips _ playerRef_lawful)

@[simp] theorem playerRef_neverNull : PlayerRef.codec.NeverNull :=
  Codec.via_neverNull _ _ _ (fun _ h => by cases h)

@[simp] theorem playerRef_written_default :
    PlayerRef.codec.de (PlayerRef.codec.ser .default) = some .default := rfl

structure LastTouch where
  player : PlayerRef
  speed : F64
  extra : Members

def LastTouch.default : LastTouch := ⟨.default,f64Zero,[]⟩

def LastTouch.record :=
  Record.cons (.defaulted "Player" PlayerRef.codec .default) <|
  Record.cons (.defaulted "Speed" .f64 f64Zero) .nil

def LastTouch.codec : Codec LastTouch :=
  LastTouch.record.flattened.via (fun ((p,s,()),e) => ⟨p,s,e⟩)
    (fun d => ((d.player,d.speed,()),d.extra))

theorem lastTouch_lawful : LastTouch.record.Lawful := by
  repeat refine Record.cons_lawful _ _ (by simp) ?_ (by simp)
  exact Record.nil_lawful

@[simp] theorem lastTouch_roundTrips : LastTouch.codec.RoundTrips :=
  Codec.via_roundTrips _ _ _ (fun _ => rfl) (Record.flattened_roundTrips _ lastTouch_lawful)

@[simp] theorem lastTouch_written_default :
    LastTouch.codec.de (LastTouch.codec.ser .default) = some .default := rfl

structure BallHitBall where
  preHitSpeed : F64
  postHitSpeed : F64
  location : Vector3
  extra : Members

def BallHitBall.default : BallHitBall := ⟨f64Zero,f64Zero,.default,[]⟩

def BallHitBall.record :=
  Record.cons (.defaulted "PreHitSpeed" .f64 f64Zero) <|
  Record.cons (.defaulted "PostHitSpeed" .f64 f64Zero) <|
  Record.cons (.required "Location" Vector3.codec) .nil

def BallHitBall.codec : Codec BallHitBall :=
  BallHitBall.record.flattened.via (fun ((a,b,l,()),e) => ⟨a,b,l,e⟩)
    (fun d => ((d.preHitSpeed,d.postHitSpeed,d.location,()),d.extra))

theorem ballHitBall_lawful : BallHitBall.record.Lawful := by
  repeat refine Record.cons_lawful _ _ (by simp) ?_ (by simp)
  exact Record.nil_lawful

@[simp] theorem ballHitBall_roundTrips : BallHitBall.codec.RoundTrips :=
  Codec.via_roundTrips _ _ _ (fun _ => rfl) (Record.flattened_roundTrips _ ballHitBall_lawful)

@[simp] theorem ballHitBall_written_default :
    BallHitBall.codec.de (BallHitBall.codec.ser .default) = some .default := rfl

structure BallHitData where
  matchGuid : Option String
  players : List PlayerRef
  ball : BallHitBall
  extra : Members

def BallHitData.record :=
  Record.cons matchGuidField <|
  Record.cons (.defaulted "Players" (.vec PlayerRef.codec) []) <|
  Record.cons (.defaulted "Ball" BallHitBall.codec .default) .nil

def BallHitData.codec : Codec BallHitData :=
  BallHitData.record.flattened.via (fun ((g,p,b,()),e) => ⟨g,p,b,e⟩)
    (fun d => ((d.matchGuid,d.players,d.ball,()),d.extra))

theorem ballHitData_lawful : BallHitData.record.Lawful := by
  repeat refine Record.cons_lawful _ _ (by simp) ?_ (by simp)
  exact Record.nil_lawful

@[simp] theorem ballHitData_roundTrips : BallHitData.codec.RoundTrips :=
  Codec.via_roundTrips _ _ _ (fun _ => rfl) (Record.flattened_roundTrips _ ballHitData_lawful)

structure BoostPickupData where
  matchGuid : Option String
  player : PlayerRef
  location : Vector3
  boostAmount : F64
  boostType : String
  bReplay : Bool
  extra : Members

def BoostPickupData.record :=
  Record.cons matchGuidField <|
  Record.cons (.defaulted "Player" PlayerRef.codec .default) <|
  Record.cons (.defaulted "Location" Vector3.codec .default) <|
  Record.cons (.defaulted "BoostAmount" .f64 f64Zero) <|
  Record.cons (.defaulted "BoostType" .string "") <|
  Record.cons (.defaulted "bReplay" .bool false) .nil

def BoostPickupData.codec : Codec BoostPickupData :=
  BoostPickupData.record.flattened.via
    (fun ((g,p,l,a,t,r,()),e) => ⟨g,p,l,a,t,r,e⟩)
    (fun d => ((d.matchGuid,d.player,d.location,d.boostAmount,d.boostType,d.bReplay,()),d.extra))

theorem boostPickupData_lawful : BoostPickupData.record.Lawful := by
  repeat refine Record.cons_lawful _ _ (by simp) ?_ (by simp)
  exact Record.nil_lawful

@[simp] theorem boostPickupData_roundTrips : BoostPickupData.codec.RoundTrips :=
  Codec.via_roundTrips _ _ _ (fun _ => rfl) (Record.flattened_roundTrips _ boostPickupData_lawful)

structure ClockUpdatedSecondsData where
  matchGuid : Option String
  timeSeconds : I64
  bOvertime : Bool
  extra : Members

def ClockUpdatedSecondsData.record :=
  Record.cons matchGuidField <|
  Record.cons (.defaulted "TimeSeconds" .i64 0) <|
  Record.cons (.defaulted "bOvertime" .bool false) .nil

def ClockUpdatedSecondsData.codec : Codec ClockUpdatedSecondsData :=
  ClockUpdatedSecondsData.record.flattened.via (fun ((g,t,o,()),e) => ⟨g,t,o,e⟩)
    (fun d => ((d.matchGuid,d.timeSeconds,d.bOvertime,()),d.extra))

theorem clockUpdatedSecondsData_lawful : ClockUpdatedSecondsData.record.Lawful := by
  repeat refine Record.cons_lawful _ _ (by simp) ?_ (by simp)
  exact Record.nil_lawful

@[simp] theorem clockUpdatedSecondsData_roundTrips : ClockUpdatedSecondsData.codec.RoundTrips :=
  Codec.via_roundTrips _ _ _ (fun _ => rfl) (Record.flattened_roundTrips _ clockUpdatedSecondsData_lawful)

structure CrossbarHitData where
  matchGuid : Option String
  ballLocation : Vector3
  ballSpeed : F64
  impactForce : F64
  ballLastTouch : LastTouch
  extra : Members

def CrossbarHitData.record :=
  Record.cons matchGuidField <|
  Record.cons (.required "BallLocation" Vector3.codec) <|
  Record.cons (.defaulted "BallSpeed" .f64 f64Zero) <|
  Record.cons (.defaulted "ImpactForce" .f64 f64Zero) <|
  Record.cons (.defaulted "BallLastTouch" LastTouch.codec .default) .nil

def CrossbarHitData.codec : Codec CrossbarHitData :=
  CrossbarHitData.record.flattened.via (fun ((g,l,s,f,t,()),e) => ⟨g,l,s,f,t,e⟩)
    (fun d => ((d.matchGuid,d.ballLocation,d.ballSpeed,d.impactForce,d.ballLastTouch,()),d.extra))

theorem crossbarHitData_lawful : CrossbarHitData.record.Lawful := by
  repeat refine Record.cons_lawful _ _ (by simp) ?_ (by simp)
  exact Record.nil_lawful

@[simp] theorem crossbarHitData_roundTrips : CrossbarHitData.codec.RoundTrips :=
  Codec.via_roundTrips _ _ _ (fun _ => rfl) (Record.flattened_roundTrips _ crossbarHitData_lawful)

structure GoalScoredData where
  matchGuid : Option String
  goalSpeed : F64
  goalTime : F64
  impactLocation : Vector3
  scorer : PlayerRef
  assister : Option PlayerRef
  ballLastTouch : LastTouch
  extra : Members

def GoalScoredData.record :=
  Record.cons matchGuidField <|
  Record.cons (.defaulted "GoalSpeed" .f64 f64Zero) <|
  Record.cons (.defaulted "GoalTime" .f64 f64Zero) <|
  Record.cons (.required "ImpactLocation" Vector3.codec) <|
  Record.cons (.defaulted "Scorer" PlayerRef.codec .default) <|
  Record.cons (.defaulted "Assister" (.option PlayerRef.codec) none) <|
  Record.cons (.defaulted "BallLastTouch" LastTouch.codec .default) .nil

def GoalScoredData.codec : Codec GoalScoredData :=
  GoalScoredData.record.flattened.via
    (fun ((g,s,t,l,p,a,b,()),e) => ⟨g,s,t,l,p,a,b,e⟩)
    (fun d => ((d.matchGuid,d.goalSpeed,d.goalTime,d.impactLocation,d.scorer,d.assister,
      d.ballLastTouch,()),d.extra))

theorem goalScoredData_lawful : GoalScoredData.record.Lawful := by
  repeat refine Record.cons_lawful _ _ (by simp) ?_ (by simp)
  exact Record.nil_lawful

@[simp] theorem goalScoredData_roundTrips : GoalScoredData.codec.RoundTrips :=
  Codec.via_roundTrips _ _ _ (fun _ => rfl) (Record.flattened_roundTrips _ goalScoredData_lawful)

structure MatchEndedData where
  matchGuid : Option String
  winnerTeamNum : I64
  extra : Members

def MatchEndedData.isNoContest (d : MatchEndedData) : Bool := decide (d.winnerTeamNum.val < 0)

def MatchEndedData.record :=
  Record.cons matchGuidField <|
  Record.cons (.defaulted "WinnerTeamNum" .i64 0) .nil

def MatchEndedData.codec : Codec MatchEndedData :=
  MatchEndedData.record.flattened.via (fun ((g,w,()),e) => ⟨g,w,e⟩)
    (fun d => ((d.matchGuid,d.winnerTeamNum,()),d.extra))

theorem matchEndedData_lawful : MatchEndedData.record.Lawful := by
  repeat refine Record.cons_lawful _ _ (by simp) ?_ (by simp)
  exact Record.nil_lawful

@[simp] theorem matchEndedData_roundTrips : MatchEndedData.codec.RoundTrips :=
  Codec.via_roundTrips _ _ _ (fun _ => rfl) (Record.flattened_roundTrips _ matchEndedData_lawful)

structure PlayerPresenceData where
  matchGuid : Option String
  playerName : String
  primaryId : String
  extra : Members

def PlayerPresenceData.record :=
  Record.cons matchGuidField <|
  Record.cons (.defaulted "PlayerName" .string "") <|
  Record.cons (.defaulted "PrimaryId" .string "") .nil

def PlayerPresenceData.codec : Codec PlayerPresenceData :=
  PlayerPresenceData.record.flattened.via (fun ((g,n,i,()),e) => ⟨g,n,i,e⟩)
    (fun d => ((d.matchGuid,d.playerName,d.primaryId,()),d.extra))

theorem playerPresenceData_lawful : PlayerPresenceData.record.Lawful := by
  repeat refine Record.cons_lawful _ _ (by simp) ?_ (by simp)
  exact Record.nil_lawful

@[simp] theorem playerPresenceData_roundTrips : PlayerPresenceData.codec.RoundTrips :=
  Codec.via_roundTrips _ _ _ (fun _ => rfl) (Record.flattened_roundTrips _ playerPresenceData_lawful)

structure ReplayCreatedData where
  matchGuid : Option String
  fileName : String
  date : String
  extra : Members

def ReplayCreatedData.record :=
  Record.cons matchGuidField <|
  Record.cons (.defaulted "FileName" .string "") <|
  Record.cons (.defaulted "Date" .string "") .nil

def ReplayCreatedData.codec : Codec ReplayCreatedData :=
  ReplayCreatedData.record.flattened.via (fun ((g,f,t,()),e) => ⟨g,f,t,e⟩)
    (fun d => ((d.matchGuid,d.fileName,d.date,()),d.extra))

theorem replayCreatedData_lawful : ReplayCreatedData.record.Lawful := by
  repeat refine Record.cons_lawful _ _ (by simp) ?_ (by simp)
  exact Record.nil_lawful

@[simp] theorem replayCreatedData_roundTrips : ReplayCreatedData.codec.RoundTrips :=
  Codec.via_roundTrips _ _ _ (fun _ => rfl) (Record.flattened_roundTrips _ replayCreatedData_lawful)

structure StatfeedEventData where
  matchGuid : Option String
  eventName : String
  typeLabel : String
  mainTarget : PlayerRef
  secondaryTarget : Option PlayerRef
  extra : Members

def StatfeedEventData.record :=
  Record.cons matchGuidField <|
  Record.cons (.defaulted "EventName" .string "") <|
  Record.cons (.defaulted "Type" .string "") <|
  Record.cons (.defaulted "MainTarget" PlayerRef.codec .default) <|
  Record.cons (.defaulted "SecondaryTarget" (.option PlayerRef.codec) none) .nil

def StatfeedEventData.codec : Codec StatfeedEventData :=
  StatfeedEventData.record.flattened.via (fun ((g,n,t,p,q,()),e) => ⟨g,n,t,p,q,e⟩)
    (fun d => ((d.matchGuid,d.eventName,d.typeLabel,d.mainTarget,d.secondaryTarget,()),d.extra))

theorem statfeedEventData_lawful : StatfeedEventData.record.Lawful := by
  repeat refine Record.cons_lawful _ _ (by simp) ?_ (by simp)
  exact Record.nil_lawful

@[simp] theorem statfeedEventData_roundTrips : StatfeedEventData.codec.RoundTrips :=
  Codec.via_roundTrips _ _ _ (fun _ => rfl) (Record.flattened_roundTrips _ statfeedEventData_lawful)

structure TeamState where
  name : Option String
  teamNum : Option I64
  score : Option I64
  colorPrimary : Option String
  colorSecondary : Option String
  extra : Members

def TeamState.record :=
  Record.cons (.defaulted "Name" (.option .string) none) <|
  Record.cons (.defaulted "TeamNum" (.option .i64) none) <|
  Record.cons (.defaulted "Score" (.option .i64) none) <|
  Record.cons (.defaulted "ColorPrimary" (.option .string) none) <|
  Record.cons (.defaulted "ColorSecondary" (.option .string) none) .nil

def TeamState.codec : Codec TeamState :=
  TeamState.record.flattened.via (fun ((n,t,s,p,c,()),e) => ⟨n,t,s,p,c,e⟩)
    (fun d => ((d.name,d.teamNum,d.score,d.colorPrimary,d.colorSecondary,()),d.extra))

theorem teamState_lawful : TeamState.record.Lawful := by
  repeat refine Record.cons_lawful _ _ (by simp) ?_ (by simp)
  exact Record.nil_lawful

@[simp] theorem teamState_roundTrips : TeamState.codec.RoundTrips :=
  Codec.via_roundTrips _ _ _ (fun _ => rfl) (Record.flattened_roundTrips _ teamState_lawful)

structure BallState where
  speed : Option F64
  teamNum : Option I64
  extra : Members

def BallState.record :=
  Record.cons (.defaulted "Speed" (.option .f64) none) <|
  Record.cons (.defaulted "TeamNum" (.option .i64) none) .nil

def BallState.codec : Codec BallState :=
  BallState.record.flattened.via (fun ((s,t,()),e) => ⟨s,t,e⟩)
    (fun d => ((d.speed,d.teamNum,()),d.extra))

theorem ballState_lawful : BallState.record.Lawful := by
  repeat refine Record.cons_lawful _ _ (by simp) ?_ (by simp)
  exact Record.nil_lawful

@[simp] theorem ballState_roundTrips : BallState.codec.RoundTrips :=
  Codec.via_roundTrips _ _ _ (fun _ => rfl) (Record.flattened_roundTrips _ ballState_lawful)

@[simp] theorem ballState_neverNull : BallState.codec.NeverNull :=
  Codec.via_neverNull _ _ _ (fun _ h => by cases h)

structure UpdateStateGame where
  teams : List TeamState
  playlistId : Option I64
  timeSeconds : Option I64
  bOvertime : Option Bool
  frame : Option I64
  elapsed : Option F64
  ball : Option BallState
  bReplay : Option Bool
  bHasWinner : Option Bool
  winner : Option String
  arena : Option String
  bHasTarget : Option Bool
  target : Option PlayerRef
  extra : Members

def UpdateStateGame.default : UpdateStateGame :=
  ⟨[],none,none,none,none,none,none,none,none,none,none,none,none,[]⟩

def UpdateStateGame.record :=
  Record.cons (.defaulted "Teams" (.vec TeamState.codec) []) <|
  Record.cons (.defaulted "PlaylistId" (.option .i64) none) <|
  Record.cons (.defaulted "TimeSeconds" (.option .i64) none) <|
  Record.cons (.defaulted "bOvertime" (.option .bool) none) <|
  Record.cons (.defaulted "Frame" (.option .i64) none) <|
  Record.cons (.defaulted "Elapsed" (.option .f64) none) <|
  Record.cons (.defaulted "Ball" (.option BallState.codec) none) <|
  Record.cons (.defaulted "bReplay" (.option .bool) none) <|
  Record.cons (.defaulted "bHasWinner" (.option .bool) none) <|
  Record.cons (.defaulted "Winner" (.option .string) none) <|
  Record.cons (.defaulted "Arena" (.option .string) none) <|
  Record.cons (.defaulted "bHasTarget" (.option .bool) none) <|
  Record.cons (.defaulted "Target" (.option PlayerRef.codec) none) .nil

def UpdateStateGame.codec : Codec UpdateStateGame :=
  UpdateStateGame.record.flattened.via
    (fun ((ts,p,t,o,f,el,b,r,hw,w,a,ht,tg,()),e) => ⟨ts,p,t,o,f,el,b,r,hw,w,a,ht,tg,e⟩)
    (fun d => ((d.teams,d.playlistId,d.timeSeconds,d.bOvertime,d.frame,d.elapsed,d.ball,
      d.bReplay,d.bHasWinner,d.winner,d.arena,d.bHasTarget,d.target,()),d.extra))

theorem updateStateGame_lawful : UpdateStateGame.record.Lawful := by
  repeat refine Record.cons_lawful _ _ (by simp) ?_ (by simp)
  exact Record.nil_lawful

@[simp] theorem updateStateGame_roundTrips : UpdateStateGame.codec.RoundTrips :=
  Codec.via_roundTrips _ _ _ (fun _ => rfl) (Record.flattened_roundTrips _ updateStateGame_lawful)

@[simp] theorem updateStateGame_written_default :
    UpdateStateGame.codec.de (UpdateStateGame.codec.ser .default) = some .default := rfl

structure UpdateStatePlayer where
  name : Option String
  primaryId : Option String
  shortcut : Option I64
  teamNum : Option I64
  score : Option I64
  goals : Option I64
  shots : Option I64
  assists : Option I64
  saves : Option I64
  touches : Option I64
  carTouches : Option I64
  demos : Option I64
  loadout : Option (List String)
  bHasCar : Option Bool
  speed : Option F64
  boost : Option I64
  bBoosting : Option Bool
  bOnGround : Option Bool
  bOnWall : Option Bool
  bPowersliding : Option Bool
  bDemolished : Option Bool
  bSupersonic : Option Bool
  pickupClass : Option String
  attacker : Option PlayerRef
  extra : Members

def UpdateStatePlayer.record :=
  Record.cons (.defaulted "Name" (.option .string) none) <|
  Record.cons (.defaulted "PrimaryId" (.option .string) none) <|
  Record.cons (.defaulted "Shortcut" (.option .i64) none) <|
  Record.cons (.defaulted "TeamNum" (.option .i64) none) <|
  Record.cons (.defaulted "Score" (.option .i64) none) <|
  Record.cons (.defaulted "Goals" (.option .i64) none) <|
  Record.cons (.defaulted "Shots" (.option .i64) none) <|
  Record.cons (.defaulted "Assists" (.option .i64) none) <|
  Record.cons (.defaulted "Saves" (.option .i64) none) <|
  Record.cons (.defaulted "Touches" (.option .i64) none) <|
  Record.cons (.defaulted "CarTouches" (.option .i64) none) <|
  Record.cons (.defaulted "Demos" (.option .i64) none) <|
  Record.cons (.defaulted "Loadout" (.option (.vec .string)) none) <|
  Record.cons (.defaulted "bHasCar" (.option .bool) none) <|
  Record.cons (.defaulted "Speed" (.option .f64) none) <|
  Record.cons (.defaulted "Boost" (.option .i64) none) <|
  Record.cons (.defaulted "bBoosting" (.option .bool) none) <|
  Record.cons (.defaulted "bOnGround" (.option .bool) none) <|
  Record.cons (.defaulted "bOnWall" (.option .bool) none) <|
  Record.cons (.defaulted "bPowersliding" (.option .bool) none) <|
  Record.cons (.defaulted "bDemolished" (.option .bool) none) <|
  Record.cons (.defaulted "bSupersonic" (.option .bool) none) <|
  Record.cons (.defaulted "PickupClass" (.option .string) none) <|
  Record.cons (.defaulted "Attacker" (.option PlayerRef.codec) none) .nil

def UpdateStatePlayer.codec : Codec UpdateStatePlayer :=
  UpdateStatePlayer.record.flattened.via
    (fun ((n,i,sc,t,s,g,sh,a,sv,tc,ct,dm,l,hc,sp,b,bb,og,ow,ps,de,ss,pc,at',()),e) =>
      ⟨n,i,sc,t,s,g,sh,a,sv,tc,ct,dm,l,hc,sp,b,bb,og,ow,ps,de,ss,pc,at',e⟩)
    (fun d => ((d.name,d.primaryId,d.shortcut,d.teamNum,d.score,d.goals,d.shots,d.assists,
      d.saves,d.touches,d.carTouches,d.demos,d.loadout,d.bHasCar,d.speed,d.boost,d.bBoosting,
      d.bOnGround,d.bOnWall,d.bPowersliding,d.bDemolished,d.bSupersonic,d.pickupClass,
      d.attacker,()),d.extra))

theorem updateStatePlayer_lawful : UpdateStatePlayer.record.Lawful := by
  repeat refine Record.cons_lawful _ _ (by simp) ?_ (by simp)
  exact Record.nil_lawful

@[simp] theorem updateStatePlayer_roundTrips : UpdateStatePlayer.codec.RoundTrips :=
  Codec.via_roundTrips _ _ _ (fun _ => rfl) (Record.flattened_roundTrips _ updateStatePlayer_lawful)

structure UpdateStateData where
  matchGuid : Option String
  players : List UpdateStatePlayer
  game : UpdateStateGame
  extra : Members

def UpdateStateData.record :=
  Record.cons matchGuidField <|
  Record.cons (.defaulted "Players" (.vec UpdateStatePlayer.codec) []) <|
  Record.cons (.defaulted "Game" UpdateStateGame.codec .default) .nil

def UpdateStateData.codec : Codec UpdateStateData :=
  UpdateStateData.record.flattened.via (fun ((g,p,s,()),e) => ⟨g,p,s,e⟩)
    (fun d => ((d.matchGuid,d.players,d.game,()),d.extra))

theorem updateStateData_lawful : UpdateStateData.record.Lawful := by
  repeat refine Record.cons_lawful _ _ (by simp) ?_ (by simp)
  exact Record.nil_lawful

@[simp] theorem updateStateData_roundTrips : UpdateStateData.codec.RoundTrips :=
  Codec.via_roundTrips _ _ _ (fun _ => rfl) (Record.flattened_roundTrips _ updateStateData_lawful)

end RlStatsApi.EventData
