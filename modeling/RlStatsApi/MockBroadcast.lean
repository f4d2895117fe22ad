import Mathlib.Data.Finset.Insert
import RlStatsApi.CheckedState
import RlStatsApi.JsonValue

/-!
# The mock generator of update states

Every payload is drawn from a 64-bit generator. The program runs on the
randomizer's state and fails where the source would panic: on an arithmetic
overflow, a failed assertion, an index out of range or a missing identity.
Checked arithmetic is exact arithmetic followed by a range check.
-/

set_option autoImplicit false

namespace RlStatsApi.MockBroadcast
open RlStatsApi.BinaryFloat RlStatsApi.JsonValue RlStatsApi.CheckedState

structure MockPlayer where
  name : String
  id : String
  primaryId : String
  shortcut : String
  team : U64
  deriving DecidableEq

structure UpdateStateRandomizer where
  rngState : BitVec 64
  tick : U64
  remainingSeconds : I64
  blueScore : U64
  orangeScore : U64
  matchGuid : String
  players : List MockPlayer
  playerIdentityById : List (String × MockPlayer)
  seenPlayerIds : Finset String
  lastPlayerPayloadById : Members

abbrev Gen := StateT UpdateStateRandomizer Option

/-! ## Arithmetic -/

/-- An integer literal of the source. -/
def i64 (i : ℤ) (lower : -2^63 ≤ i := by decide) (upper : i < 2^63 := by decide) : I64 :=
  ⟨i,lower,upper⟩

def checkedU64 (i : ℤ) : Option U64 :=
  if h : 0 ≤ i ∧ i < 2^64 then some ⟨i.toNat,by omega⟩ else none

def checkedI64 (i : ℤ) : Option I64 :=
  if lower : -2^63 ≤ i then if upper : i < 2^63 then some ⟨i,lower,upper⟩ else none else none

def checkedRem (a b : ℕ) : Option ℕ := if b = 0 then none else some (a%b)

def saturatingSucc (a : U64) : U64 :=
  if h : a.val+1 < 2^64 then ⟨a.val+1,h⟩ else a

/-- The cast of a signed integer to an unsigned one, modulo `2 ^ 64`. -/
def asU64 (i : I64) : U64 :=
  ⟨(i.val%2^64).toNat,by
    have h0 := Int.emod_nonneg i.val (b := 2^64) (by decide)
    have h1 := Int.emod_lt_of_pos i.val (b := 2^64) (by decide)
    omega⟩

/-- The cast of an unsigned integer to a signed one, modulo `2 ^ 64`. -/
def asI64 (n : ℕ) : I64 :=
  if h : n%2^64 < 2^63 then ⟨(n%2^64 : ℕ),by omega,by omega⟩
  else ⟨(n%2^64 : ℕ)-2^64,by omega,by omega⟩

/-! ## Draws -/

/-- One step of xorshift64*. -/
def nextU64 : Gen U64 := do
  let r ← get
  let x := r.rngState
  let x := x ^^^ (x >>> 12)
  let x := x ^^^ (x <<< 25)
  let x := x ^^^ (x >>> 27)
  set {r with rngState := x}
  return (x*0x2545F4914F6CDD1D#64).toFin

def rangeU64 (min max : U64) : Gen U64 := do
  guard (min ≤ max)
  if min = max then
    return min
  let x ← nextU64
  let width ← checkedU64 (max.val-min.val)
  let count ← checkedU64 (width.val+1)
  let r ← checkedRem x.val count.val
  checkedU64 (min.val+r)

def rangeI64 (min max : I64) : Gen I64 := do
  guard (min.val ≤ max.val)
  if min = max then
    return min
  let x ← nextU64
  let width ← checkedI64 (max.val-min.val)
  let count ← checkedI64 (width.val+1)
  let r ← checkedRem x.val (asU64 count).val
  checkedI64 (min.val+(asI64 r).val)

def chance (numerator denominator : U64) : Gen Bool := do
  if denominator = 0 then
    return false
  let x ← nextU64
  return decide (x.val%denominator.val < numerator.val)

/-- An object literal: its values are computed in the order of the text. -/
def object (members : List (String × Gen Value)) : Gen Value := do
  let entries ← members.mapM (fun m => (m.1,·) <$> m.2)
  return .ofMembers entries

def count (min max : U64) : Gen Value := Value.ofU64 <$> rangeU64 min max

def flag (numerator denominator : U64) : Gen Value := .bool <$> chance numerator denominator

def coordinate (min max : I64) : Gen Value := (Value.ofF64 <| ofInt binary64 ·.val) <$> rangeI64 min max

def angle : Gen Value :=
  (fun i => Value.ofF64 ((ofInt binary64 i.val).div (ofInt binary64 100))) <$>
    rangeI64 (i64 (-314)) (i64 314)

/-- Players and the ball differ in how low they get. -/
def location (zMin : I64) : Gen Value :=
  object [("X",coordinate (i64 (-4096)) (i64 4096)),("Y",coordinate (i64 (-5120)) (i64 5120)),
    ("Z",coordinate zMin (i64 2044)),("pitch",angle),("roll",angle),("yaw",angle)]

/-! ## The pool -/

def pool : List MockPlayer :=
  [⟨"BlueStriker","BlueStriker_1","Steam|111|0","BS",0⟩,
    ⟨"BlueMid","BlueMid_3","Steam|333|0","BM",0⟩,
    ⟨"BlueKeeper","BlueKeeper_6","Steam|666|0","BK",0⟩,
    ⟨"OrangeStriker","OrangeStriker_2","Epic|222|0","OS",1⟩,
    ⟨"OrangeMid","OrangeMid_4","Epic|444|0","OM",1⟩,
    ⟨"OrangeKeeper","OrangeKeeper_5","Epic|555|0","OK",1⟩]

def identities (players : List MockPlayer) : List (String × MockPlayer) :=
  SortedAssoc.insertAll (players.map (fun p => (p.id,p))) []

def UpdateStateRandomizer.new (seed : BitVec 64) (matchGuid : String) : UpdateStateRandomizer where
  rngState := seed
  tick := 0
  remainingSeconds := i64 300
  blueScore := 0
  orangeScore := 0
  matchGuid := matchGuid
  players := pool
  playerIdentityById := identities pool
  seenPlayerIds := ∅
  lastPlayerPayloadById := []

def identityFor (playerId : String) : Gen MockPlayer := do
  let r ← get
  r.playerIdentityById.lookup playerId

/-! ## One tick -/

/-- The clock runs down by a drawn amount and starts again below zero. -/
def advanceClock : Gen Unit := do
  modify fun r => {r with tick := saturatingSucc r.tick}
  let drain ← rangeI64 1 (i64 3)
  let r ← get
  let remaining ← checkedI64 (r.remainingSeconds.val-drain.val)
  set {r with remainingSeconds := remaining}
  if remaining.val < 0 then
    modify fun r => {r with remainingSeconds := i64 300, blueScore := 0, orangeScore := 0}

/-- A goal in one tick out of fourteen. -/
def drawGoal (score : UpdateStateRandomizer → UpdateStateRandomizer) : Gen Unit := do
  if ← chance 1 14 then
    modify score

def advanceScores : Gen Unit := do
  drawGoal fun r => {r with blueScore := saturatingSucc r.blueScore}
  drawGoal fun r => {r with orangeScore := saturatingSucc r.orangeScore}

/-- The active players stand in a row in the pool, which is closed to a ring. -/
def drawActiveIds : Gen (List String) := do
  let activeCount ← rangeU64 2 6
  let r ← get
  let last ← checkedU64 (r.players.length-1)
  let start ← rangeU64 0 last
  (List.range activeCount.val).mapM fun (offset : ℕ) => do
    let place ← checkedU64 (start.val+offset)
    let idx ← checkedRem place.val r.players.length
    let player ← r.players[idx]?
    return player.id

/-- Whether there is an attacker: nothing is drawn for a single player. -/
def attacked (activeIds : List String) : Gen Bool :=
  if 1 < activeIds.length then chance 1 4 else return false

/-- The drawn place, or the next one where it is the player's own. -/
def attackerPlace (drawn : U64) (index length : ℕ) : Gen ℕ :=
  if drawn.val = index then do
    let next ← checkedU64 (drawn.val+1)
    checkedRem next.val length
  else return drawn.val

def drawAttacker (activeIds : List String) (index : ℕ) : Gen String := do
  let hit ← attacked activeIds
  if hit then
    let last ← checkedU64 (activeIds.length-1)
    let drawn ← rangeU64 0 last
    let idx ← attackerPlace drawn index activeIds.length
    let id ← activeIds[idx]?
    let identity ← identityFor id
    return identity.name
  else return ""

def playerPayload (identity : MockPlayer) (attacker : String) : Gen Value :=
  object [("name",pure (.string identity.name)),("id",pure (.string identity.id)),
    ("primaryID",pure (.string identity.primaryId)),("team",pure (.ofU64 identity.team)),
    ("score",count 0 900),("goals",count 0 5),("shots",count 0 8),("assists",count 0 4),
    ("saves",count 0 6),("touches",count 0 60),("cartouches",count 0 45),("demos",count 0 4),
    ("boost",count 0 100),("speed",count 600 2300),("hasCar",pure (.bool true)),
    ("isSonic",flag 1 5),("isPowersliding",flag 1 4),("isDead",flag 1 20),
    ("attacker",pure (.string attacker)),("shortcut",pure (.string identity.shortcut)),
    ("onGround",flag 3 4),("onWall",flag 1 3),("location",location (i64 17))]

/-- A drawn payload is the player's last one, and the player has been seen. -/
def recorded (player : MockPlayer) (payload : Value) (r : UpdateStateRandomizer) :
    UpdateStateRandomizer :=
  {r with
    seenPlayerIds := insert player.id r.seenPlayerIds
    lastPlayerPayloadById := SortedAssoc.insert player.id payload r.lastPlayerPayloadById}

/-- The loop over the active players; their payloads are returned. -/
def drawActive (activeIds : List String) : Gen Members :=
  activeIds.zipIdx.foldlM (fun activePayloadById p => do
    let attacker ← drawAttacker activeIds p.2
    let identity ← identityFor p.1
    let payload ← playerPayload identity attacker
    modify (recorded identity payload)
    return SortedAssoc.insert identity.id payload activePayloadById) []

/-- One round of the loop over the pool: the payload of a player that has been
seen is the one just drawn or the last one. -/
def collect (activePayloadById : Members) (r : UpdateStateRandomizer) (playerMap : Members)
    (player : MockPlayer) : Members :=
  if player.id ∈ r.seenPlayerIds then
    match (activePayloadById.lookup player.id).or
        (r.lastPlayerPayloadById.lookup player.id) with
    | some payload => SortedAssoc.insert player.id payload playerMap
    | none => playerMap
  else playerMap

def collectPlayers (activePayloadById : Members) (r : UpdateStateRandomizer) : Members :=
  r.players.foldl (collect activePayloadById r) []

def hasWinner (r : UpdateStateRandomizer) : Bool :=
  r.remainingSeconds.val == 0 && r.blueScore != r.orangeScore

def winner (r : UpdateStateRandomizer) : String :=
  if hasWinner r then if r.orangeScore < r.blueScore then "Blue" else "Orange" else ""

def ball : Gen Value :=
  object [("location",location (i64 94)),("speed",count 200 2400),("team",count 0 1)]

def teamEntry (name primary : String) (score : U64) : Value :=
  .ofMembers [("name",.string name),("score",.ofU64 score),("color_primary",.string primary),
    ("color_secondary",.string "E5E5E5")]

def game (r : UpdateStateRandomizer) : Gen Value :=
  object [("arena",pure (.string "DFH Stadium")),("time",pure (.ofI64 r.remainingSeconds)),
    ("time_seconds",pure (.ofI64 r.remainingSeconds)),
    ("isOT",pure (.bool (r.remainingSeconds.val == 0 && r.blueScore == r.orangeScore))),
    ("isReplay",flag 1 10),("hasWinner",pure (.bool (hasWinner r))),
    ("winner",pure (.string (winner r))),("hasTarget",pure (.bool true)),
    ("target",pure (.string "Ball")),("ball",ball),
    ("teams",pure (.array [teamEntry "Blue" "1873FF" r.blueScore,
      teamEntry "Orange" "C26418" r.orangeScore]))]

def updateState (r : UpdateStateRandomizer) (playerMap : Members) : Gen Value :=
  object [("match_guid",pure (.string r.matchGuid)),("hasGame",pure (.bool true)),
    ("game",game r),("players",pure (.object playerMap))]

/-- The active players of a call, which its payload does not tell apart, and
the payload. -/
structure Tick where
  activeIds : List String
  payload : Value

def drawTick : Gen Tick := do
  advanceClock
  advanceScores
  let activeIds ← drawActiveIds
  let activePayloadById ← drawActive activeIds
  let r ← get
  let payload ← updateState r (collectPlayers activePayloadById r)
  return ⟨activeIds,payload⟩

def nextUpdateStatePayload : Gen Value := Tick.payload <$> drawTick

end RlStatsApi.MockBroadcast
