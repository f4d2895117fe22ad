import RlStatsApi.CodecLayout
import RlStatsApi.EventRoundTrip

/-!
# What a typed event keeps of its payload

Every payload keeps all members it was sent, known or not, at every depth.
The exceptions are the vectors, which alone have no map of extra members and
keep their three coordinates only, and the number members, which hold
binary64 data. Nothing is lost of exactly the payloads without such members.
-/

set_option autoImplicit false

namespace RlStatsApi.EventLayout
open RlStatsApi.JsonValue RlStatsApi.SerdeCodec RlStatsApi.CodecLayout
open RlStatsApi.EventData RlStatsApi.Error RlStatsApi.EventParsing RlStatsApi.EventRoundTrip
open RlStatsApi.TextReader

def vectorLayout : Layout := .fields [("X",.float),("Y",.float),("Z",.float)]

def playerRefLayout : Layout := .record []

def lastTouchLayout : Layout := .record [("Player",playerRefLayout),("Speed",.float)]

def ballHitBallLayout : Layout :=
  .record [("PreHitSpeed",.float),("PostHitSpeed",.float),("Location",vectorLayout)]

def ballHitLayout : Layout :=
  .record [("Players",.list playerRefLayout),("Ball",ballHitBallLayout)]

def boostPickupLayout : Layout :=
  .record [("Player",playerRefLayout),("Location",vectorLayout),("BoostAmount",.float)]

def crossbarHitLayout : Layout :=
  .record [("BallLocation",vectorLayout),("BallSpeed",.float),("ImpactForce",.float),
    ("BallLastTouch",lastTouchLayout)]

def goalScoredLayout : Layout :=
  .record [("GoalSpeed",.float),("GoalTime",.float),("ImpactLocation",vectorLayout),
    ("Scorer",playerRefLayout),("Assister",playerRefLayout),("BallLastTouch",lastTouchLayout)]

def statfeedEventLayout : Layout :=
  .record [("MainTarget",playerRefLayout),("SecondaryTarget",playerRefLayout)]

def ballStateLayout : Layout := .record [("Speed",.float)]

def updateStateGameLayout : Layout :=
  .record [("Teams",.list (.record [])),("Elapsed",.float),("Ball",ballStateLayout),
    ("Target",playerRefLayout)]

def updateStatePlayerLayout : Layout :=
  .record [("Loadout",.list .exact),("Speed",.float),("Attacker",playerRefLayout)]

def updateStateLayout : Layout :=
  .record [("Players",.list updateStatePlayerLayout),("Game",updateStateGameLayout)]

def payloadLayout : StatsEvent → Layout
  | .updateState _ => updateStateLayout
  | .ballHit _ => ballHitLayout
  | .boostPickup _ => boostPickupLayout
  | .crossbarHit _ => crossbarHitLayout
  | .goalScored _ => goalScoredLayout
  | .statfeedEvent _ => statfeedEventLayout
  | _ => .record []

/-- The layout of the payload under an event's name. -/
def layoutOf : String → Layout
  | "UpdateState" => updateStateLayout
  | "BallHit" => ballHitLayout
  | "BoostPickup" => boostPickupLayout
  | "CrossbarHit" => crossbarHitLayout
  | "GoalScored" => goalScoredLayout
  | "StatfeedEvent" => statfeedEventLayout
  | _ => .record []

@[simp] theorem matchOnlyData_keeps : Keeps MatchOnlyData.codec (.record []) := by
  apply via_keeps _ _ _ _ (fun _ => rfl)
  apply flattened_keeps _ matchOnlyData_lawful _ _ (by simp [MatchOnlyData.record])
  repeat refine cons_keeps _ _ _ (by simp) ?_ (by simp)
  exact nil_keeps _

@[simp] theorem vector3_keeps : Keeps Vector3.codec vectorLayout := by
  apply via_keeps _ _ _ _ (fun _ => rfl)
  apply plain_keeps _ vector3_lawful _ _ rfl
  repeat refine cons_keeps _ _ _ (by simp) ?_ (by simp)
  exact nil_keeps _

@[simp] theorem playerRef_keeps : Keeps PlayerRef.codec playerRefLayout := by
  apply via_keeps _ _ _ _ (fun _ => rfl)
  apply flattened_keeps _ playerRef_lawful _ _ (by simp [PlayerRef.record])
  repeat refine cons_keeps _ _ _ (by simp) ?_ (by simp)
  exact nil_keeps _

@[simp] theorem lastTouch_keeps : Keeps LastTouch.codec lastTouchLayout := by
  apply via_keeps _ _ _ _ (fun _ => rfl)
  apply flattened_keeps _ lastTouch_lawful _ _ (by simp [LastTouch.record])
  repeat refine cons_keeps _ _ _ (by simp) ?_ (by simp)
  exact nil_keeps _

@[simp] theorem ballHitBall_keeps : Keeps BallHitBall.codec ballHitBallLayout := by
  apply via_keeps _ _ _ _ (fun _ => rfl)
  apply flattened_keeps _ ballHitBall_lawful _ _ (by simp [BallHitBall.record])
  repeat refine cons_keeps _ _ _ (by simp) ?_ (by simp)
  exact nil_keeps _

@[simp] theorem ballHitData_keeps : Keeps BallHitData.codec ballHitLayout := by
  apply via_keeps _ _ _ _ (fun _ => rfl)
  apply flattened_keeps _ ballHitData_lawful _ _ (by simp [BallHitData.record])
  repeat refine cons_keeps _ _ _ (by simp) ?_ (by simp)
  exact nil_keeps _

@[simp] theorem boostPickupData_keeps : Keeps BoostPickupData.codec boostPickupLayout := by
  apply via_keeps _ _ _ _ (fun _ => rfl)
  apply flattened_keeps _ boostPickupData_lawful _ _ (by simp [BoostPickupData.record])
  repeat refine cons_keeps _ _ _ (by simp) ?_ (by simp)
  exact nil_keeps _

@[simp] theorem clockUpdatedSecondsData_keeps : Keeps ClockUpdatedSecondsData.codec (.record []) := by
  apply via_keeps _ _ _ _ (fun _ => rfl)
  apply flattened_keeps _ clockUpdatedSecondsData_lawful _ _ (by simp [ClockUpdatedSecondsData.record])
  repeat refine cons_keeps _ _ _ (by simp) ?_ (by simp)
  exact nil_keeps _

@[simp] theorem crossbarHitData_keeps : Keeps CrossbarHitData.codec crossbarHitLayout := by
  apply via_keeps _ _ _ _ (fun _ => rfl)
  apply flattened_keeps _ crossbarHitData_lawful _ _ (by simp [CrossbarHitData.record])
  repeat refine cons_keeps _ _ _ (by simp) ?_ (by simp)
  exact nil_keeps _

@[simp] theorem goalScoredData_keeps : Keeps GoalScoredData.codec goalScoredLayout := by
  apply via_keeps _ _ _ _ (fun _ => rfl)
  apply flattened_keeps _ goalScoredData_lawful _ _ (by simp [GoalScoredData.record])
  repeat refine cons_keeps _ _ _ (by simp) ?_ (by simp)
  exact nil_keeps _

@[simp] theorem matchEndedData_keeps : Keeps MatchEndedData.codec (.record []) := by
  apply via_keeps _ _ _ _ (fun _ => rfl)
  apply flattened_keeps _ matchEndedData_lawful _ _ (by simp [MatchEndedData.record])
  repeat refine cons_keeps _ _ _ (by simp) ?_ (by simp)
  exact nil_keeps _

@[simp] theorem playerPresenceData_keeps : Keeps PlayerPresenceData.codec (.record []) := by
  apply via_keeps _ _ _ _ (fun _ => rfl)
  apply flattened_keeps _ playerPresenceData_lawful _ _ (by simp [PlayerPresenceData.record])
  repeat refine cons_keeps _ _ _ (by simp) ?_ (by simp)
  exact nil_keeps _

@[simp] theorem replayCreatedData_keeps : Keeps ReplayCreatedData.codec (.record []) := by
  apply via_keeps _ _ _ _ (fun _ => rfl)
  apply flattened_keeps _ replayCreatedData_lawful _ _ (by simp [ReplayCreatedData.record])
  repeat refine cons_keeps _ _ _ (by simp) ?_ (by simp)
  exact nil_keeps _

@[simp] theorem statfeedEventData_keeps : Keeps StatfeedEventData.codec statfeedEventLayout := by
  apply via_keeps _ _ _ _ (fun _ => rfl)
  apply flattened_keeps _ statfeedEventData_lawful _ _ (by simp [StatfeedEventData.record])
  repeat refine cons_keeps _ _ _ (by simp) ?_ (by simp)
  exact nil_keeps _

@[simp] theorem teamState_keeps : Keeps TeamState.codec (.record []) := by
  apply via_keeps _ _ _ _ (fun _ => rfl)
  apply flattened_keeps _ teamState_lawful _ _ (by simp [TeamState.record])
  repeat refine cons_keeps _ _ _ (by simp) ?_ (by simp)
  exact nil_keeps _

@[simp] theorem ballState_keeps : Keeps BallState.codec ballStateLayout := by
  apply via_keeps _ _ _ _ (fun _ => rfl)
  apply flattened_keeps _ ballState_lawful _ _ (by simp [BallState.record])
  repeat refine cons_keeps _ _ _ (by simp) ?_ (by simp)
  exact nil_keeps _

@[simp] theorem updateStateGame_keeps : Keeps UpdateStateGame.codec updateStateGameLayout := by
  apply via_keeps _ _ _ _ (fun _ => rfl)
  apply flattened_keeps _ updateStateGame_lawful _ _ (by simp [UpdateStateGame.record])
  repeat refine cons_keeps _ _ _ (by simp) ?_ (by simp)
  exact nil_keeps _

@[simp] theorem updateStatePlayer_keeps : Keeps UpdateStatePlayer.codec updateStatePlayerLayout := by
  apply via_keeps _ _ _ _ (fun _ => rfl)
  apply flattened_keeps _ updateStatePlayer_lawful _ _ (by simp [UpdateStatePlayer.record])
  repeat refine cons_keeps _ _ _ (by simp) ?_ (by simp)
  exact nil_keeps _

@[simp] theorem updateStateData_keeps : Keeps UpdateStateData.codec updateStateLayout := by
  apply via_keeps _ _ _ _ (fun _ => rfl)
  apply flattened_keeps _ updateStateData_lawful _ _ (by simp [UpdateStateData.record])
  repeat refine cons_keeps _ _ _ (by simp) ?_ (by simp)
  exact nil_keeps _

theorem typed_keeps (e : StatsEvent) (p : Payload) (h : typed e = some p) :
    Keeps p.codec (payloadLayout e) := by
  cases e <;> cases h <;> simp [payloadLayout]

theorem envelopeValue_data (name : String) (data : Value) :
    (envelopeValue name data).get "data" = some data := by
  rw [envelopeValue, Value.ofMembers, Value.get, SortedAssoc.lookup_insertAll]
  rfl

variable (read : Reader)

theorem layoutOf_parsed (env : EventEnvelope) (e : StatsEvent)
    (h : parseEventEnvelope read env = .ok e) (he : ∀ u, e ≠ .unknown u) :
    payloadLayout e = layoutOf env.event := by
  unfold parseEventEnvelope at h
  cases hd : normalizeEventData read env.data with
  | error c => simp [hd, Bind.bind, Except.bind] at h
  | ok data =>
    simp only [hd, Bind.bind, Except.bind] at h
    split at h
    case h_26 =>
      cases h
      exact absurd rfl (he _)
    all_goals
      next hname =>
        obtain ⟨a,_,rfl⟩ := (map_fromValue_ok _ _ _ _).mp h
        rw [hname]
        rfl

/-- A typed event is written with every member of the payload that it was
read from, at every path that the payload's layout reaches, and with
everything that is in the payload exactly when the payload fits the layout. -/
theorem typed_event_keeps_members (v : Json) (e : StatsEvent)
    (h : parseStatsEventValue read v.1 = .ok e) (he : ∀ u, e ≠ .unknown u) :
    ∃ env data written out, EventEnvelope.de v.1 = some env ∧
      normalizeEventData read env.data = .ok data ∧
      statsEventToValue e = .ok written ∧ written.get "data" = some out ∧
      (LosesNothing data out ↔ Fits (layoutOf env.event) data) ∧
      Kept (payloadLayout e) data out ∧
      ∀ path x l, valueAt data path = some x → layoutAt (payloadLayout e) path = some l →
        ∃ y, valueAt out path = some y ∧ Kept l x y := by
  cases hp : typed e with
  | none =>
    obtain ⟨u,hu⟩ := typed_none e hp
    exact absurd hu (he u)
  | some p =>
    unfold parseStatsEventValue at h
    split at h
    · next env henv =>
      obtain ⟨data,hn,hd⟩ := parseEventEnvelope_typed read env e p h hp
      have hc := normalizeEventData_canonical read _ _ (envelope_canonical _ _ v.2 henv) hn
      have hk := typed_keeps e p hp data p.datum hc hd
      have hiff : LosesNothing data (p.codec.ser p.datum) ↔ Fits (layoutOf env.event) data := by
        rw [← layoutOf_parsed read env e h he]
        exact loses_nothing_iff _ _ _ hk
      exact ⟨env,data,_,_,henv,hn,statsEventToValue_typed e p hp,envelopeValue_data _ _,hiff,hk,
        fun path x l hx hl => kept_at path _ l data _ x hk hx hl⟩
    · cases h

def pickupData : Value :=
  .object [("BoostAmount",.number (.posInt (2^53+1) (by decide))),
    ("Location",.object [("W",.number (.posInt 7 (by decide)))]),("Skin",.string "gold")]

def pickupTree : Value := .object [("Data",pickupData),("Event",.string "BoostPickup")]

def pickupEnvelope : Json := ⟨pickupTree,pickupTree.collapse_canonical⟩

def pickupEvent : StatsEvent :=
  .boostPickup ⟨none,.default,.default,BinaryFloat.ofInt _ (2^53+1),"",false,
    [("Skin",.string "gold")]⟩

theorem pickup_keeps_members :
    ∃ env data written out, EventEnvelope.de pickupEnvelope.1 = some env ∧
      normalizeEventData noText env.data = .ok data ∧
      statsEventToValue pickupEvent = .ok written ∧ written.get "data" = some out ∧
      (LosesNothing data out ↔ Fits (layoutOf env.event) data) ∧
      Kept (payloadLayout pickupEvent) data out ∧
      ∀ path x l, valueAt data path = some x → layoutAt (payloadLayout pickupEvent) path = some l →
        ∃ y, valueAt out path = some y ∧ Kept l x y :=
  typed_event_keeps_members noText pickupEnvelope pickupEvent rfl (fun _ h => by cases h)

def writtenAt (e : StatsEvent) (path : List Step) : Option Value :=
  (statsEventToValue e).toOption.bind (fun w => valueAt w (.key "data"::path))

/-- A vector drops a fourth member, and `2 ^ 53 + 1` is no binary64 datum. -/
theorem pickup_loses_members :
    parseStatsEventValue noText pickupEnvelope.1 = .ok pickupEvent ∧
    ((valueAt pickupData [.key "Location",.key "W"]).bind Value.asU64 = some 7 ∧
      (writtenAt pickupEvent [.key "Location",.key "W"]).isNone = true) ∧
    (((valueAt pickupData [.key "BoostAmount"]).bind Value.asU64).map Fin.val = some (2^53+1) ∧
      ((writtenAt pickupEvent [.key "BoostAmount"]).bind Value.asF64).map (fun x => x.toRat) =
        some (2^53)) ∧
    ∀ written out, statsEventToValue pickupEvent = .ok written → written.get "data" = some out →
      ¬ LosesNothing pickupData out := by
  refine ⟨rfl,⟨by decide +kernel,by decide +kernel⟩,⟨by decide +kernel,by decide +kernel⟩,?_⟩
  intro written out hw ho hn
  have hlost : (writtenAt pickupEvent [.key "Location",.key "W"]).isNone = true := by
    decide +kernel
  obtain ⟨y,hy,_⟩ := hn [.key "Location",.key "W"] _ rfl
  have hfound : writtenAt pickupEvent [.key "Location",.key "W"] = some y := by
    cases hw
    cases ho
    exact hy
  rw [hfound] at hlost
  cases hlost

end RlStatsApi.EventLayout
