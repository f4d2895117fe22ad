import RlStatsApi.EventData
import RlStatsApi.TextReader

/-!
# Event envelopes

An envelope names an event and carries its payload. Parsing reads the
envelope, unwraps a payload given as a text, and then reads the payload by
the event's name; a name outside the table is carried as `unknown`. Writing
uses the event's own name. The reader of JSON texts is a parameter. An
envelope that is read from a text is not made a value first: the members that
it does not know are passed over.
-/

set_option autoImplicit false

namespace RlStatsApi.EventParsing
open RlStatsApi.JsonValue RlStatsApi.SerdeCodec RlStatsApi.EventData RlStatsApi.Error
open RlStatsApi.TextReader

structure EventEnvelope where
  event : String
  data : Value

structure UnknownEvent where
  event : String
  data : Value

inductive StatsEvent where
  | updateState (data : UpdateStateData)
  | ballHit (data : BallHitData)
  | boostPickup (data : BoostPickupData)
  | clockUpdatedSeconds (data : ClockUpdatedSecondsData)
  | countdownBegin (data : MatchOnlyData)
  | crossbarHit (data : CrossbarHitData)
  | goalReplayEnd (data : MatchOnlyData)
  | goalReplayStart (data : MatchOnlyData)
  | goalReplayWillEnd (data : MatchOnlyData)
  | goalScored (data : GoalScoredData)
  | matchCreated (data : MatchOnlyData)
  | matchInitialized (data : MatchOnlyData)
  | matchDestroyed (data : MatchOnlyData)
  | matchEnded (data : MatchEndedData)
  | matchPaused (data : MatchOnlyData)
  | matchUnpaused (data : MatchOnlyData)
  | playerJoined (data : PlayerPresenceData)
  | playerLeft (data : PlayerPresenceData)
  | podiumStart (data : MatchOnlyData)
  | replayCreated (data : ReplayCreatedData)
  | roundStarted (data : MatchOnlyData)
  | statfeedEvent (data : StatfeedEventData)
  | unknown (data : UnknownEvent)

def statsEventName : StatsEvent → String
  | .updateState _ => "UpdateState"
  | .ballHit _ => "BallHit"
  | .boostPickup _ => "BoostPickup"
  | .clockUpdatedSeconds _ => "ClockUpdatedSeconds"
  | .countdownBegin _ => "CountdownBegin"
  | .crossbarHit _ => "CrossbarHit"
  | .goalReplayEnd _ => "GoalReplayEnd"
  | .goalReplayStart _ => "GoalReplayStart"
  | .goalReplayWillEnd _ => "GoalReplayWillEnd"
  | .goalScored _ => "GoalScored"
  | .matchCreated _ => "MatchCreated"
  | .matchInitialized _ => "MatchInitialized"
  | .matchDestroyed _ => "MatchDestroyed"
  | .matchEnded _ => "MatchEnded"
  | .matchPaused _ => "MatchPaused"
  | .matchUnpaused _ => "MatchUnpaused"
  | .playerJoined _ => "PlayerJoined"
  | .playerLeft _ => "PlayerLeft"
  | .podiumStart _ => "PodiumStart"
  | .replayCreated _ => "ReplayCreated"
  | .roundStarted _ => "RoundStarted"
  | .statfeedEvent _ => "StatfeedEvent"
  | .unknown _ => "Unknown"

def envelopeValue (event : String) (data : Value) : Value :=
  .ofMembers [("event",.string event),("data",data)]

def statsEventToValue : StatsEvent → Outcome Value
  | .updateState d => .ok (envelopeValue "UpdateState" (UpdateStateData.codec.ser d))
  | .ballHit d => .ok (envelopeValue "BallHit" (BallHitData.codec.ser d))
  | .boostPickup d => .ok (envelopeValue "BoostPickup" (BoostPickupData.codec.ser d))
  | .clockUpdatedSeconds d =>
    .ok (envelopeValue "ClockUpdatedSeconds" (ClockUpdatedSecondsData.codec.ser d))
  | .countdownBegin d => .ok (envelopeValue "CountdownBegin" (MatchOnlyData.codec.ser d))
  | .crossbarHit d => .ok (envelopeValue "CrossbarHit" (CrossbarHitData.codec.ser d))
  | .goalReplayEnd d => .ok (envelopeValue "GoalReplayEnd" (MatchOnlyData.codec.ser d))
  | .goalReplayStart d => .ok (envelopeValue "GoalReplayStart" (MatchOnlyData.codec.ser d))
  | .goalReplayWillEnd d => .ok (envelopeValue "GoalReplayWillEnd" (MatchOnlyData.codec.ser d))
  | .goalScored d => .ok (envelopeValue "GoalScored" (GoalScoredData.codec.ser d))
  | .matchCreated d => .ok (envelopeValue "MatchCreated" (MatchOnlyData.codec.ser d))
  | .matchInitialized d => .ok (envelopeValue "MatchInitialized" (MatchOnlyData.codec.ser d))
  | .matchDestroyed d => .ok (envelopeValue "MatchDestroyed" (MatchOnlyData.codec.ser d))
  | .matchEnded d => .ok (envelopeValue "MatchEnded" (MatchEndedData.codec.ser d))
  | .matchPaused d => .ok (envelopeValue "MatchPaused" (MatchOnlyData.codec.ser d))
  | .matchUnpaused d => .ok (envelopeValue "MatchUnpaused" (MatchOnlyData.codec.ser d))
  | .playerJoined d => .ok (envelopeValue "PlayerJoined" (PlayerPresenceData.codec.ser d))
  | .playerLeft d => .ok (envelopeValue "PlayerLeft" (PlayerPresenceData.codec.ser d))
  | .podiumStart d => .ok (envelopeValue "PodiumStart" (MatchOnlyData.codec.ser d))
  | .replayCreated d => .ok (envelopeValue "ReplayCreated" (ReplayCreatedData.codec.ser d))
  | .roundStarted d => .ok (envelopeValue "RoundStarted" (MatchOnlyData.codec.ser d))
  | .statfeedEvent d => .ok (envelopeValue "StatfeedEvent" (StatfeedEventData.codec.ser d))
  | .unknown d => .ok (envelopeValue d.event d.data)

/-- The member given once under its name or its alias; a member given twice
is refused. -/
def member (m : Members) (name other : String) : Option Value :=
  match m.filter (fun p => p.1 = name ∨ p.1 = other) with
  | [p] => some p.2
  | _ => none

def EventEnvelope.de : Value → Option EventEnvelope
  | .object m => (member m "Event" "event").bind (fun e => e.asStr.bind (fun event =>
    (member m "Data" "data").map (fun data => ⟨event,data⟩)))
  | .array [e,data] => e.asStr.map (fun event => ⟨event,data⟩)
  | _ => none

/-! ## Envelopes in texts -/

/-- The fields of an envelope that have been found so far. -/
structure Fields where
  event : Option String
  data : Option Value

def isEventKey (key : String) : Bool := key = "Event" || key = "event"

def isDataKey (key : String) : Bool := key = "Data" || key = "data"

def Fields.visit (f : Fields) (key : String) (p : Part) : Except Category Fields :=
  if isEventKey key then
    if f.event.isSome then .error .data else (fun event => {f with event := some event}) <$> p.text
  else if isDataKey key then
    if f.data.isSome then .error .data else (fun data => {f with data := some data}) <$> p.value
  else (fun _ => f) <$> p.skip

def visitMap : Fields → List (String × Part) → Except Category Fields
  | f, [] => .ok f
  | f, (key,p)::members => do
    let f ← f.visit key p
    visitMap f members

def Fields.envelope : Fields → Except Category EventEnvelope
  | ⟨some event,some data⟩ => .ok ⟨event,data⟩
  | _ => .error .data

/-- The envelope as it is read from the text itself. -/
def EventEnvelope.fromDocument : Document → Except Category EventEnvelope
  | .object members ending => do
    let f ← visitMap ⟨none,none⟩ members
    ending.reached
    let envelope ← f.envelope
    ending.over
    return envelope
  | .array [] ending => do
    ending.reached
    .error .data
  | .array [e] ending => do
    let _ ← e.text
    ending.reached
    .error .data
  | .array [e,data] ending => do
    let event ← e.text
    let data ← data.value
    ending.over
    return ⟨event,data⟩
  | .array (e::data::_::_) _ => do
    let _ ← e.text
    let _ ← data.value
    .error .malformed
  | .single part _ _ => do
    let _ ← part.value
    .error .data

/-! ## Events -/

def fromValue {α : Type} (c : Codec α) (v : Value) : Outcome α :=
  match c.de v with
  | some a => .ok a
  | none => .error (.json .data)

section Parsing

variable (read : Reader)

def fromStr (raw : String) : Outcome Value :=
  match read raw with
  | .ok tree => .ok tree.collapse
  | .error category => .error (.json category)

def normalizeEventData : Value → Outcome Value
  | .string raw => fromStr read raw
  | other => .ok other

def parseEventEnvelope (envelope : EventEnvelope) : Outcome StatsEvent := do
  let data ← normalizeEventData read envelope.data
  match envelope.event with
  | "UpdateState" => .updateState <$> fromValue UpdateStateData.codec data
  | "BallHit" => .ballHit <$> fromValue BallHitData.codec data
  | "BoostPickup" => .boostPickup <$> fromValue BoostPickupData.codec data
  | "ClockUpdatedSeconds" => .clockUpdatedSeconds <$> fromValue ClockUpdatedSecondsData.codec data
  | "CountdownBegin" => .countdownBegin <$> fromValue MatchOnlyData.codec data
  | "CrossbarHit" => .crossbarHit <$> fromValue CrossbarHitData.codec data
  | "GoalReplayEnd" | "ReplayEnd" => .goalReplayEnd <$> fromValue MatchOnlyData.codec data
  | "GoalReplayStart" | "ReplayStart" => .goalReplayStart <$> fromValue MatchOnlyData.codec data
  | "GoalReplayWillEnd" | "ReplayWillEnd" =>
    .goalReplayWillEnd <$> fromValue MatchOnlyData.codec data
  | "GoalScored" => .goalScored <$> fromValue GoalScoredData.codec data
  | "MatchCreated" => .matchCreated <$> fromValue MatchOnlyData.codec data
  | "MatchInitialized" => .matchInitialized <$> fromValue MatchOnlyData.codec data
  | "MatchDestroyed" => .matchDestroyed <$> fromValue MatchOnlyData.codec data
  | "MatchEnded" => .matchEnded <$> fromValue MatchEndedData.codec data
  | "MatchPaused" => .matchPaused <$> fromValue MatchOnlyData.codec data
  | "MatchUnpaused" => .matchUnpaused <$> fromValue MatchOnlyData.codec data
  | "PlayerJoined" => .playerJoined <$> fromValue PlayerPresenceData.codec data
  | "PlayerLeft" => .playerLeft <$> fromValue PlayerPresenceData.codec data
  | "PodiumStart" => .podiumStart <$> fromValue MatchOnlyData.codec data
  | "ReplayCreated" => .replayCreated <$> fromValue ReplayCreatedData.codec data
  | "RoundStarted" => .roundStarted <$> fromValue MatchOnlyData.codec data
  | "StatfeedEvent" => .statfeedEvent <$> fromValue StatfeedEventData.codec data
  | event => .ok (.unknown ⟨event,data⟩)

def parseStatsEventValue (value : Value) : Outcome StatsEvent :=
  match EventEnvelope.de value with
  | some envelope => parseEventEnvelope read envelope
  | none => .error (.json .data)

def parseStatsEvent (input : String) : Outcome StatsEvent :=
  match EventEnvelope.fromDocument (read.scan input) with
  | .error category => .error (.json category)
  | .ok envelope => parseEventEnvelope read ⟨envelope.event,envelope.data.collapse⟩

end Parsing

/-- A reader that refuses every text. -/
def noText : Reader := .ofValues fun _ => .error .malformed

end RlStatsApi.EventParsing
