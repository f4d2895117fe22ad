import RlStatsApi.EnvelopeReading

/-!
# Events written and parsed again

The names of the parser, the names of the writer and the payload codecs are
three tables over the events. A typed event that came out of the parser
comes out again when what the writer makes of it is parsed. An event with a
name outside the parser's table is carried, but a payload given as a text is
unwrapped before the name is looked at.
-/

set_option autoImplicit false

namespace RlStatsApi.EventRoundTrip
open RlStatsApi.JsonValue RlStatsApi.SerdeCodec RlStatsApi.EventData RlStatsApi.Error
open RlStatsApi.EventParsing RlStatsApi.TextReader RlStatsApi.EnvelopeReading

/-! ## Typed payloads -/

/-- A datum together with the codec that reads and writes it. -/
structure Payload where
  carrier : Type
  codec : Codec carrier
  datum : carrier

def typed : StatsEvent → Option Payload
  | .updateState d => some ⟨_,UpdateStateData.codec,d⟩
  | .ballHit d => some ⟨_,BallHitData.codec,d⟩
  | .boostPickup d => some ⟨_,BoostPickupData.codec,d⟩
  | .clockUpdatedSeconds d => some ⟨_,ClockUpdatedSecondsData.codec,d⟩
  | .countdownBegin d => some ⟨_,MatchOnlyData.codec,d⟩
  | .crossbarHit d => some ⟨_,CrossbarHitData.codec,d⟩
  | .goalReplayEnd d => some ⟨_,MatchOnlyData.codec,d⟩
  | .goalReplayStart d => some ⟨_,MatchOnlyData.codec,d⟩
  | .goalReplayWillEnd d => some ⟨_,MatchOnlyData.codec,d⟩
  | .goalScored d => some ⟨_,GoalScoredData.codec,d⟩
  | .matchCreated d => some ⟨_,MatchOnlyData.codec,d⟩
  | .matchInitialized d => some ⟨_,MatchOnlyData.codec,d⟩
  | .matchDestroyed d => some ⟨_,MatchOnlyData.codec,d⟩
  | .matchEnded d => some ⟨_,MatchEndedData.codec,d⟩
  | .matchPaused d => some ⟨_,MatchOnlyData.codec,d⟩
  | .matchUnpaused d => some ⟨_,MatchOnlyData.codec,d⟩
  | .playerJoined d => some ⟨_,PlayerPresenceData.codec,d⟩
  | .playerLeft d => some ⟨_,PlayerPresenceData.codec,d⟩
  | .podiumStart d => some ⟨_,MatchOnlyData.codec,d⟩
  | .replayCreated d => some ⟨_,ReplayCreatedData.codec,d⟩
  | .roundStarted d => some ⟨_,MatchOnlyData.codec,d⟩
  | .statfeedEvent d => some ⟨_,StatfeedEventData.codec,d⟩
  | .unknown _ => none

theorem map_fromValue_ok {α β : Type} (c : Codec α) (v : Value) (make : α → β) (b : β) :
    make <$> fromValue c v = .ok b ↔ ∃ a, c.de v = some a ∧ make a = b := by
  unfold fromValue
  cases c.de v with
  | none => simp [Functor.map, Except.map]
  | some a => simp [Functor.map, Except.map]

theorem typed_none (e : StatsEvent) (h : typed e = none) : ∃ u, e = .unknown u := by
  cases e <;> first | exact ⟨_,rfl⟩ | cases h

theorem typed_roundTrips (e : StatsEvent) (p : Payload) (h : typed e = some p) :
    p.codec.RoundTrips := by
  cases e <;> cases h <;> simp

theorem typed_object (e : StatsEvent) (p : Payload) (h : typed e = some p) :
    ∃ m, p.codec.ser p.datum = .object m := by
  cases e <;> cases h <;> exact ⟨_,rfl⟩

theorem statsEventToValue_typed (e : StatsEvent) (p : Payload) (h : typed e = some p) :
    statsEventToValue e = .ok (envelopeValue (statsEventName e) (p.codec.ser p.datum)) := by
  cases e <;> cases h <;> rfl

variable (read : Reader)

/-- A typed event comes from its own payload. -/
theorem parseEventEnvelope_typed (env : EventEnvelope) (e : StatsEvent) (p : Payload)
    (h : parseEventEnvelope read env = .ok e) (hp : typed e = some p) :
    ∃ data, normalizeEventData read env.data = .ok data ∧ p.codec.de data = some p.datum := by
  unfold parseEventEnvelope at h
  cases hd : normalizeEventData read env.data with
  | error c => simp [hd, Bind.bind, Except.bind] at h
  | ok data =>
    refine ⟨data,rfl,?_⟩
    simp only [hd, Bind.bind, Except.bind] at h
    split at h
    case h_26 =>
      cases h
      cases hp
    all_goals
      obtain ⟨a,ha,rfl⟩ := (map_fromValue_ok _ _ _ _).mp h
      cases hp
      exact ha

theorem parseEventEnvelope_written (e : StatsEvent) (p : Payload) (v data : Value)
    (hp : typed e = some p) (hv : normalizeEventData read v = .ok data)
    (hd : p.codec.de data = some p.datum) :
    parseEventEnvelope read ⟨statsEventName e,v⟩ = .ok e := by
  cases e <;> cases hp <;>
    simpa [parseEventEnvelope, statsEventName, hv, Bind.bind, Except.bind, map_fromValue_ok]
      using hd

theorem envelopeValue_read (name : String) (data : Value) :
    EventEnvelope.de (envelopeValue name data) = some ⟨name,data⟩ := by
  have ho : envelopeValue name data = .object [("data",data),("event",.string name)] := by
    have hlt : "data" < "event" := by decide
    simp only [envelopeValue, Value.ofMembers, SortedAssoc.insertAll, List.foldl,
      SortedAssoc.insert, if_pos hlt]
  simp [ho, EventEnvelope.de, member, Value.asStr]

theorem member_canonical (m : Members) (name other : String) (v : Value)
    (hm : (Value.object m).Canonical) (h : member m name other = some v) : v.Canonical := by
  unfold member at h
  split at h
  · next p hp =>
    cases h
    have hmem : p ∈ m := by
      apply List.mem_of_mem_filter (p := fun p => decide (p.1 = name ∨ p.1 = other))
      rw [hp]
      simp
    cases hm with
    | object _ _ hall => exact hall p hmem
  · cases h

theorem envelope_canonical (v : Value) (env : EventEnvelope) (hv : v.Canonical)
    (h : EventEnvelope.de v = some env) : env.data.Canonical := by
  unfold EventEnvelope.de at h
  split at h
  · simp only [Option.bind_eq_some_iff, Option.map_eq_some_iff] at h
    obtain ⟨_,_,_,_,data,hd,rfl⟩ := h
    exact member_canonical _ _ _ data hv hd
  · obtain ⟨_,_,rfl⟩ := Option.map_eq_some_iff.mp h
    exact hv.items _ (by simp)
  · cases h

theorem normalizeEventData_canonical (d data : Value) (hd : d.Canonical)
    (h : normalizeEventData read d = .ok data) : data.Canonical := by
  unfold normalizeEventData at h
  split at h
  · unfold fromStr at h
    split at h
    · cases h
      exact Value.collapse_canonical _
    · cases h
  · cases h
    exact hd

theorem normalizeEventData_object (m : Members) :
    normalizeEventData read (.object m) = .ok (.object m) := rfl

/-- A typed event that was parsed is parsed again from what is written for it. -/
theorem typed_event_reparsed (v : Json) (e : StatsEvent)
    (h : parseStatsEventValue read v.1 = .ok e) (he : ∀ u, e ≠ .unknown u) :
    (statsEventToValue e >>= parseStatsEventValue read) = .ok e := by
  cases hp : typed e with
  | none =>
    obtain ⟨u,hu⟩ := typed_none e hp
    exact absurd hu (he u)
  | some p =>
    unfold parseStatsEventValue at h
    split at h
    · next env henv =>
      obtain ⟨data,hn,hd⟩ := parseEventEnvelope_typed read env e p h hp
      have hc := normalizeEventData_canonical read _ _ (envelope_canonical _ _ v.2 henv) hn
      have hback := typed_roundTrips e p hp data p.datum hc hd
      obtain ⟨m,hm⟩ := typed_object e p hp
      rw [statsEventToValue_typed e p hp]
      show parseStatsEventValue read (envelopeValue _ _) = _
      rw [parseStatsEventValue, envelopeValue_read]
      apply parseEventEnvelope_written read e p _ _ hp _ hback
      rw [hm, normalizeEventData_object]
    · cases h

def replayEndEnvelope : Json :=
  ⟨.object [("Data",.object [("MatchGuid",.string "m1"),("Overlay",.bool true)]),
    ("Event",.string "ReplayEnd")],
   Value.collapse_canonical (.object [("Data",.object [("MatchGuid",.string "m1"),
    ("Overlay",.bool true)]),("Event",.string "ReplayEnd")])⟩

theorem replay_end_reparsed :
    (statsEventToValue (.goalReplayEnd ⟨some "m1",[("Overlay",.bool true)]⟩) >>=
      parseStatsEventValue noText) =
        .ok (.goalReplayEnd ⟨some "m1",[("Overlay",.bool true)]⟩) :=
  typed_event_reparsed noText replayEndEnvelope _ rfl (fun _ h => by cases h)

/-! ## Unrecognised names -/

def recognisedNames : List String :=
  ["UpdateState","BallHit","BoostPickup","ClockUpdatedSeconds","CountdownBegin","CrossbarHit",
   "GoalReplayEnd","ReplayEnd","GoalReplayStart","ReplayStart","GoalReplayWillEnd",
   "ReplayWillEnd","GoalScored","MatchCreated","MatchInitialized","MatchDestroyed","MatchEnded",
   "MatchPaused","MatchUnpaused","PlayerJoined","PlayerLeft","PodiumStart","ReplayCreated",
   "RoundStarted","StatfeedEvent"]

theorem parseEventEnvelope_unknown (name : String) (d : Value) (hn : name ∉ recognisedNames) :
    parseEventEnvelope read ⟨name,d⟩ =
      (fun data => .unknown ⟨name,data⟩) <$> normalizeEventData read d := by
  unfold parseEventEnvelope
  cases normalizeEventData read d with
  | error _ => rfl
  | ok data =>
    simp only [Bind.bind, Except.bind]
    split
    case h_26 => rfl
    all_goals simp [recognisedNames] at hn

def isText : Value → Bool
  | .string _ => true
  | _ => false

theorem normalizeEventData_other (d : Value) (hd : isText d = false) :
    normalizeEventData read d = .ok d := by
  cases d with
  | string raw => cases hd
  | _ => rfl

theorem parse_unknown_envelope (name : String) (d : Value) (hn : name ∉ recognisedNames) :
    parseEventEnvelope read ⟨name,d⟩ =
      match normalizeEventData read d with
      | .ok data => .ok (.unknown ⟨name,data⟩)
      | .error e => .error e := by
  rw [parseEventEnvelope_unknown read name d hn]
  cases normalizeEventData read d <;> rfl

/-- `parse_event_json`, with the printer of JSON texts as a parameter. -/
def parseEventJson (print : Value → String) (raw : String) : Outcome String := do
  let event ← parseStatsEvent read raw
  let value ← statsEventToValue event
  return print value

/-- The envelope of an event as the game sends it. -/
def gameEnvelope (name : String) (d : Value) : Value :=
  .ofMembers [("Event",.string name),("Data",d)]

theorem gameEnvelope_read (name : String) (d : Value) :
    EventEnvelope.de (gameEnvelope name d) = some ⟨name,d⟩ := by
  have ho : gameEnvelope name d = .object [("Data",d),("Event",.string name)] := by
    have hlt : "Data" < "Event" := by decide
    simp only [gameEnvelope, Value.ofMembers, SortedAssoc.insertAll, List.foldl,
      SortedAssoc.insert, if_pos hlt]
  simp [ho, EventEnvelope.de, member, Value.asStr]

/-- A text that is what was written is parsed by what was written. -/
theorem parseStatsEvent_written (text name : String) (d : Value) (hc : d.Canonical)
    (hr : read text = .ok (envelopeValue name d)) (e : StatsEvent)
    (h : parseEventEnvelope read ⟨name,d⟩ = .ok e) : parseStatsEvent read text = .ok e := by
  rw [parseStatsEvent_read read text _ hr]
  refine ⟨⟨name,d⟩,envelopeValue_read name d,?_⟩
  rwa [Value.collapse_of_canonical d hc]

/-- Parsing what is written for an unknown event gives it again, as a value
and, where the printed text reads back as the printed value, as a text. -/
def Stable (u : UnknownEvent) : Prop :=
  (statsEventToValue (.unknown u) >>= parseStatsEventValue read) = .ok (.unknown u) ∧
  ∀ print : Value → String,
    read (print (envelopeValue u.event u.data)) = .ok (envelopeValue u.event u.data) →
    parseEventJson read print (print (envelopeValue u.event u.data)) =
      .ok (print (envelopeValue u.event u.data))

theorem stable_of_data (name : String) (d : Value) (hn : name ∉ recognisedNames)
    (hc : d.Canonical) (hd : isText d = false) : Stable read ⟨name,d⟩ := by
  have hparse : parseEventEnvelope read ⟨name,d⟩ = .ok (.unknown ⟨name,d⟩) := by
    rw [parse_unknown_envelope read name d hn, normalizeEventData_other read d hd]
  constructor
  · show parseStatsEventValue read (envelopeValue name d) = _
    rw [parseStatsEventValue, envelopeValue_read]
    exact hparse
  · intro print hr
    have htext := parseStatsEvent_written read _ name d hc hr _ hparse
    rw [parseEventJson, htext]
    rfl

/-- A payload that is no text is carried; a text is carried as the value it
reads to, and refused when it reads to none. -/
theorem unknown_event_carried (name : String) (d : Json) (hn : name ∉ recognisedNames) :
    (isText d.1 = false →
      parseStatsEventValue read (gameEnvelope name d.1) = .ok (.unknown ⟨name,d.1⟩) ∧
      Stable read ⟨name,d.1⟩) ∧
    ∀ raw, d.1 = .string raw →
      (∀ category, read raw = .error category →
        parseStatsEventValue read (gameEnvelope name d.1) = .error (.json category)) ∧
      ∀ tree, read raw = .ok tree →
        parseStatsEventValue read (gameEnvelope name d.1) =
          .ok (.unknown ⟨name,tree.collapse⟩) ∧
        (isText tree.collapse = false → Stable read ⟨name,tree.collapse⟩) ∧
        (statsEventToValue (.unknown ⟨name,tree.collapse⟩) >>= parseStatsEventValue read) =
          parseStatsEventValue read (gameEnvelope name tree.collapse) := by
  have hparse : ∀ v, parseStatsEventValue read (gameEnvelope name v) =
      parseEventEnvelope read ⟨name,v⟩ := by
    intro v
    rw [parseStatsEventValue, gameEnvelope_read]
  constructor
  · intro hd
    refine ⟨?_,stable_of_data read name d.1 hn d.2 hd⟩
    rw [hparse, parse_unknown_envelope read name _ hn, normalizeEventData_other read _ hd]
  · intro raw hraw
    rw [hparse, parse_unknown_envelope read name _ hn, hraw]
    constructor
    · intro category hr
      simp only [normalizeEventData, fromStr, hr]
    · intro tree hr
      refine ⟨by simp only [normalizeEventData, fromStr, hr],?_,?_⟩
      · exact stable_of_data read name _ hn (Value.collapse_canonical tree)
      · rw [hparse]
        show parseStatsEventValue read (envelopeValue name tree.collapse) = _
        rw [parseStatsEventValue, envelopeValue_read]

theorem ping_carried :
    parseStatsEventValue noText (gameEnvelope "Ping" (.bool true)) =
      .ok (.unknown ⟨"Ping",.bool true⟩) :=
  ((unknown_event_carried noText "Ping" ⟨.bool true,.bool true⟩ (by decide)).1 rfl).1

/-- The text `hello` is no JSON, so an unknown event that carries it is refused. -/
theorem plain_text_refused : ¬ ∀ name ∉ recognisedNames, ∀ d : Json, ∃ u,
    parseStatsEventValue noText (gameEnvelope name d.1) = .ok (.unknown u) ∧ u.event = name := by
  intro h
  obtain ⟨u,hu,_⟩ := h "Ping" (by decide) ⟨.string "hello",.string _⟩
  cases hu

end RlStatsApi.EventRoundTrip
