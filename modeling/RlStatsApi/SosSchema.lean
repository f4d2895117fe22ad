import RlStatsApi.BroadcastServer
import RlStatsApi.JsonShape

/-!
# The schema of the SOS messages

The broadcaster and the mock server send the same messages under the same
names, and differ in a few members only. A schema has a shape for each name;
what the broadcaster translates an event to fits its own schema, and the
schema that an overlay may rely on with either server.
-/

set_option autoImplicit false

namespace RlStatsApi.SosSchema
open RlStatsApi.JsonValue RlStatsApi.EventData RlStatsApi.EventParsing RlStatsApi.SosTranslation
open RlStatsApi.RelayLoop RlStatsApi.JsonShape RlStatsApi.JsonShape.Shape
open RlStatsApi.OverlayClients RlStatsApi.BroadcastServer

/-! ## Shapes -/

/-- Where the servers differ. -/
structure Dialect where
  matchGuid : Shape
  shortcut : Shape
  ballLocation : Shape
  noContest : Shape
  fileName : Shape
  date : Shape

/-- A number that is not finite is written as null. -/
def coordinate : Shape := .either .number .null

def vector3 : Shape := .record [("X",coordinate),("Y",coordinate),("Z",coordinate)]

def placement : Shape :=
  .record [("X",coordinate),("Y",coordinate),("Z",coordinate),("pitch",coordinate),
    ("roll",coordinate),("yaw",coordinate)]

def team : Shape :=
  .record [("name",.text),("score",.integer),("color_primary",.text),("color_secondary",.text)]

def statfeedTargetShape : Shape :=
  .record [("name",.text),("id",.text),("team_num",.integer)]

def scorerShape (teamnum : Shape) : Shape :=
  .record [("name",.text),("id",.text),("teamnum",teamnum)]

section Messages

variable (d : Dialect)

def player : Shape :=
  .record [("name",.text),("id",.text),("primaryID",.text),("team",.integer),("score",.integer),
    ("goals",.integer),("shots",.integer),("assists",.integer),("saves",.integer),
    ("touches",.integer),("cartouches",.integer),("demos",.integer),("boost",.integer),
    ("speed",.integer),("hasCar",.flag),("isSonic",.flag),("isPowersliding",.flag),
    ("isDead",.flag),("attacker",.text),("shortcut",d.shortcut),("onGround",.flag),
    ("onWall",.flag),("location",placement)]

def ballShape : Shape :=
  .record [("location",d.ballLocation),("speed",.integer),("team",.integer)]

def gameShape : Shape :=
  .record [("arena",.text),("time",.integer),("time_seconds",.integer),("isOT",.flag),
    ("isReplay",.flag),("hasWinner",.flag),("winner",.text),("hasTarget",.flag),
    ("target",.text),("ball",ballShape d),("teams",.tuple [team,team])]

def updateStateShape : Shape :=
  .record [("match_guid",d.matchGuid),("hasGame",.flag),("game",gameShape d),
    ("players",.keyed "id" (player d))]

def matchOnly : Shape := .record [("match_guid",d.matchGuid)]

def ballHit : Shape :=
  .record [("match_guid",d.matchGuid),
    ("player",.record [("name",.text),("id",.text)]),
    ("ball",.record [("location",vector3),("pre_hit_speed",.integer),
      ("post_hit_speed",.integer)])]

def statfeedEvent : Shape :=
  .record [("match_guid",d.matchGuid),("event_name",.text),("type",.text),
    ("main_target",statfeedTargetShape),("secondary_target",statfeedTargetShape)]

/-- A goal without an assister has an empty one, of no team. -/
def goalScored : Shape :=
  .record [("match_guid",d.matchGuid),("goalspeed",.integer),("goaltime",coordinate),
    ("impact_location",.record [("X",coordinate),("Y",coordinate)]),
    ("scorer",scorerShape .integer),("assister",scorerShape (.either .integer .null)),
    ("ball_last_touch",.record [("player",.text),("speed",.integer)])]

def matchEnded : Shape :=
  .record [("match_guid",d.matchGuid),("winner_team_num",.integer),("no_contest",d.noContest)]

def replayCreated : Shape :=
  .record [("match_guid",d.matchGuid),("file_name",d.fileName),("date",d.date)]

def schema : List (String × Shape) :=
  [("sos:version",.text),("game:match_created",matchOnly d),("game:initialized",matchOnly d),
    ("game:pre_countdown_begin",matchOnly d),("game:post_countdown_begin",matchOnly d),
    ("game:update_state",updateStateShape d),("game:ball_hit",ballHit d),
    ("game:statfeed_event",statfeedEvent d),("game:goal_scored",goalScored d),
    ("game:replay_start",matchOnly d),("game:replay_will_end",matchOnly d),
    ("game:replay_end",matchOnly d),("game:match_ended",matchEnded d),
    ("game:podium_start",matchOnly d),("game:match_destroyed",matchOnly d),
    ("game:replay_created",replayCreated d),("game:round_started_go",.text)]

/-- The data of an envelope fit the shape of its name, if that has one. -/
def Conforms (e : SosEnvelope) : Prop :=
  ∀ s, (schema d).lookup e.event = some s → fits s e.data = true

end Messages

def broadcaster : Dialect := ⟨.either .text .null,.integer,vector3,.flag,.text,.text⟩

/-- What an overlay may rely on with either server. -/
def overlay : Dialect :=
  ⟨.either .text .null,.either .integer .text,.either vector3 placement,.optional .flag,
    .optional .text,.optional .text⟩

@[simp] theorem broadcaster_shortcut : broadcaster.shortcut = .integer := rfl

@[simp] theorem broadcaster_ballLocation : broadcaster.ballLocation = vector3 := rfl

@[simp] theorem broadcaster_noContest : broadcaster.noContest = .flag := rfl

@[simp] theorem broadcaster_fileName : broadcaster.fileName = .text := rfl

@[simp] theorem broadcaster_date : broadcaster.date = .text := rfl

/-! ## What is written -/

@[simp] theorem fits_text (s : String) : fits .text (.string s) = true := rfl

@[simp] theorem fits_flag (b : Bool) : fits .flag (.bool b) = true := rfl

@[simp] theorem fits_integer (i : I64) : fits .integer (.ofI64 i) = true := by
  change (Number.ofI64 i).asInteger.isSome = true
  unfold Number.ofI64
  split_ifs <;> rfl

@[simp] theorem fits_coordinate (x : F64) : fits coordinate (.ofF64 x) = true := by
  unfold Value.ofF64
  split_ifs <;> rfl

@[simp] theorem fits_guid (text : Option String) :
    fits broadcaster.matchGuid (optionalText text) = true := by
  cases text <;> rfl

theorem vector3_fits (x y z : F64) : fits vector3 (vector3Value x y z) = true := by
  refine fits_ofMembers _ _ (by decide) ?_
  simp [Written]

theorem location_fits (x y z pitch roll yaw : F64) :
    fits placement (locationValue x y z pitch roll yaw) = true := by
  refine fits_ofMembers _ _ (by decide) ?_
  simp [Written]

/-- A location is built, or the origin. -/
theorem extracted_fits (s : Shape) (build : Members → Value) (origin : Value)
    (extra : Option Members) (hb : ∀ m, fits s (build m) = true) (ho : fits s origin = true) :
    fits s (extractWith build origin extra) = true := by
  unfold extractWith
  split
  · exact ho
  · split
    · exact hb _
    · exact ho

theorem ballLocation_fits (extra : Option Members) :
    fits vector3 (extractBallLocation extra) = true :=
  extracted_fits vector3 _ _ extra (fun _ => vector3_fits _ _ _) (vector3_fits _ _ _)

theorem playerLocation_fits (extra : Option Members) :
    fits placement (extractLocation extra) = true :=
  extracted_fits placement _ _ extra (fun _ => location_fits _ _ _ _ _ _)
    (location_fits _ _ _ _ _ _)

theorem playerPayload_fits (p : UpdateStatePlayer) (id : String) :
    fits (player broadcaster) (playerPayload p id) = true := by
  refine fits_ofMembers _ _ (by decide) ?_
  have hl := playerLocation_fits (some p.extra)
  simp [Written, hl]

theorem players_fit (data : UpdateStateData) :
    fits (.keyed "id" (player broadcaster)) (translatePlayers data) = true := by
  rw [translatePlayers, Value.ofMembers, fits_keyed_iff]
  intro p hp
  rcases SortedAssoc.mem_insertAll _ _ p hp with hp | hp
  · obtain ⟨x,_,rfl⟩ := List.mem_map.mp hp
    refine ⟨playerPayload_fits x (playerId x),?_⟩
    simp only [playerPayload, Value.get_ofMembers]
    rfl
  · cases hp

theorem team_fits (t : Option TeamState) (name primary secondary : String) :
    fits team (teamPayload t name primary secondary) = true := by
  refine fits_ofMembers _ _ (by decide) ?_
  simp [Written]

theorem teams_fit (teams : List TeamState) :
    fits (.tuple [team,team]) (translateTeams teams) = true := by
  simp [translateTeams, fits, fitsItems, team_fits]

theorem updateState_fits (data : UpdateStateData) :
    fits (updateStateShape broadcaster) (translateUpdateState data) = true := by
  have hball : ∀ extra speed teamNum, fits (ballShape broadcaster)
      (.ofMembers [("location",extractBallLocation extra),("speed",.ofI64 speed),
        ("team",.ofI64 teamNum)]) = true := by
    intro extra speed teamNum
    refine fits_ofMembers _ _ (by decide) ?_
    have hl := ballLocation_fits extra
    simp [Written, hl]
  refine fits_ofMembers _ _ (by decide) ?_
  have hplayers := players_fit data
  simp only [List.forall₂_cons, List.forall₂_nil_left_iff, Written, fits_flag, fits_guid,
    hplayers, and_self, and_true, true_and]
  refine fits_ofMembers _ _ (by decide) ?_
  have hteams := teams_fit data.game.teams
  simp [Written, hball, hteams]

/-! ## Events -/

theorem matchGuidPayload_fits (data : MatchOnlyData) :
    fits (matchOnly broadcaster) (matchGuidPayload data) = true := by
  refine fits_ofMembers _ _ (by decide) ?_
  simp [Written]

theorem ballHitPayload_fits (data : BallHitData) :
    fits (ballHit broadcaster) (ballHitPayload data) = true := by
  have hplayer : ∀ name id, fits (.record [("name",.text),("id",.text)])
      (.ofMembers [("name",.string name),("id",.string id)]) = true := by
    intro name id
    exact fits_ofMembers _ _ (by decide) (by simp [Written])
  have hball : ∀ x y z pre post,
      fits (.record [("location",vector3),("pre_hit_speed",.integer),("post_hit_speed",.integer)])
        (.ofMembers [("location",vector3Value x y z),("pre_hit_speed",.ofI64 pre),
          ("post_hit_speed",.ofI64 post)]) = true := by
    intro x y z pre post
    exact fits_ofMembers _ _ (by decide) (by simp [Written, vector3_fits])
  refine fits_ofMembers _ _ (by decide) ?_
  simp [Written, hplayer, hball]

theorem statfeedTarget_fits (name id : String) (teamNum : I64) :
    fits statfeedTargetShape (statfeedTarget name id teamNum) = true :=
  fits_ofMembers _ _ (by decide) (by simp [Written])

theorem statfeedPayload_fits (data : StatfeedEventData) :
    fits (statfeedEvent broadcaster) (statfeedPayload data) = true := by
  have hsecondary : fits statfeedTargetShape (statfeedSecondaryTarget data.secondaryTarget) =
      true := by
    cases data.secondaryTarget <;> exact statfeedTarget_fits _ _ _
  refine fits_ofMembers _ _ (by decide) ?_
  simp [Written, statfeedTarget_fits, hsecondary]

theorem scorer_fits (p : PlayerRef) : fits (scorerShape .integer) (scorerPayload p) = true :=
  fits_ofMembers _ _ (by decide) (by simp [Written])

theorem assister_fits (p : Option PlayerRef) :
    fits (scorerShape (.either .integer .null)) (assisterPayload p) = true := by
  cases p with
  | none => exact fits_ofMembers _ _ (by decide) (by simp [Written, fits])
  | some p => exact fits_ofMembers _ _ (by decide) (by simp [Written, fits])

theorem goalScoredPayload_fits (data : GoalScoredData) :
    fits (goalScored broadcaster) (goalScoredPayload data) = true := by
  have himpact : ∀ x y, fits (.record [("X",coordinate),("Y",coordinate)])
      (.ofMembers [("X",.ofF64 x),("Y",.ofF64 y)]) = true := by
    intro x y
    exact fits_ofMembers _ _ (by decide) (by simp [Written])
  have htouch : ∀ id speed, fits (.record [("player",.text),("speed",.integer)])
      (.ofMembers [("player",.string id),("speed",.ofI64 speed)]) = true := by
    intro id speed
    exact fits_ofMembers _ _ (by decide) (by simp [Written])
  refine fits_ofMembers _ _ (by decide) ?_
  simp [Written, himpact, htouch, scorer_fits, assister_fits]

theorem matchEndedPayload_fits (data : MatchEndedData) :
    fits (matchEnded broadcaster) (matchEndedPayload data) = true := by
  refine fits_ofMembers _ _ (by decide) ?_
  simp [Written]

theorem replayCreatedPayload_fits (data : ReplayCreatedData) :
    fits (replayCreated broadcaster) (replayCreatedPayload data) = true := by
  refine fits_ofMembers _ _ (by decide) ?_
  simp [Written]

def sosNames : List String := (schema broadcaster).map Prod.fst

theorem schema_other (d : Dialect) (name : String) (h : name ∉ sosNames) :
    (schema d).lookup name = none := SortedAssoc.lookup_none_of_not_key (schema d) name h

/-- The name has this shape and the data fit it. -/
theorem conforms_of (d : Dialect) (name : String) (data : Value) (s : Shape)
    (hs : (schema d).lookup name = some s) (h : fits s data = true) :
    Conforms d ⟨name,data⟩ := by
  intro s' hs'
  rw [hs] at hs'
  cases hs'
  exact h

theorem message_conforms (name : String) (data : Value) (s : Shape)
    (hs : (schema broadcaster).lookup name = some s) (h : fits s data = true) :
    ∀ e ∈ [(⟨name,data⟩ : SosEnvelope)], Conforms broadcaster e :=
  List.forall_mem_singleton.mpr (conforms_of broadcaster name data s hs h)

theorem conforms_other (d : Dialect) (e : SosEnvelope) (h : e.event ∉ sosNames) :
    Conforms d e := by
  intro s hs
  rw [schema_other d e.event h] at hs
  cases hs

/-- An event that the parser does not know has no SOS name. -/
def Plain (event : StatsEvent) : Prop := ∀ u, event = .unknown u → u.event ∉ sosNames

theorem envelope_get (name : String) (data : Value) :
    (envelopeValue name data).get "event" = some (.string name) ∧
    (envelopeValue name data).get "data" = some data := by
  rw [envelopeValue, Value.get_ofMembers, Value.get_ofMembers]
  exact ⟨rfl,rfl⟩

theorem passed_conforms (event : StatsEvent) (name : String) (data : Value)
    (h : statsEventToValue event = .ok (envelopeValue name data)) (hn : name ∉ sosNames)
    (ht : translateStatsEvent event = (passthroughEnvelope event).map (fun e => [e])) :
    ∀ e ∈ translation event, Conforms broadcaster e := by
  obtain ⟨hevent,hdata⟩ := envelope_get name data
  have hpass : passthroughEnvelope event = .ok ⟨name,data⟩ := by
    rw [passthroughEnvelope, h]
    simp only [Except.map, hevent, hdata]
    rfl
  have hall : translation event = [⟨name,data⟩] := by
    rw [translation, ht, hpass]
    rfl
  rw [hall, List.forall_mem_singleton]
  exact conforms_other broadcaster _ hn

/-- What the broadcaster sends for an event fits its schema. -/
theorem translation_conforms (event : StatsEvent) (h : Plain event) :
    ∀ e ∈ translation event, Conforms broadcaster e := by
  have hguid := matchGuidPayload_fits
  cases event with
  | updateState data => exact message_conforms _ _ _ rfl (updateState_fits data)
  | ballHit data => exact message_conforms _ _ _ rfl (ballHitPayload_fits data)
  | boostPickup data => exact passed_conforms _ "BoostPickup" _ rfl (by decide) rfl
  | clockUpdatedSeconds data =>
    exact passed_conforms _ "ClockUpdatedSeconds" _ rfl (by decide) rfl
  | countdownBegin data =>
    exact List.forall_mem_cons.mpr ⟨conforms_of broadcaster _ _ _ rfl (hguid data),
      message_conforms _ _ _ rfl (hguid data)⟩
  | crossbarHit data => exact passed_conforms _ "CrossbarHit" _ rfl (by decide) rfl
  | goalReplayEnd data => exact message_conforms _ _ _ rfl (hguid data)
  | goalReplayStart data => exact message_conforms _ _ _ rfl (hguid data)
  | goalReplayWillEnd data => exact message_conforms _ _ _ rfl (hguid data)
  | goalScored data => exact message_conforms _ _ _ rfl (goalScoredPayload_fits data)
  | matchCreated data => exact message_conforms _ _ _ rfl (hguid data)
  | matchInitialized data => exact message_conforms _ _ _ rfl (hguid data)
  | matchDestroyed data => exact message_conforms _ _ _ rfl (hguid data)
  | matchEnded data => exact message_conforms _ _ _ rfl (matchEndedPayload_fits data)
  | matchPaused data => exact passed_conforms _ "MatchPaused" _ rfl (by decide) rfl
  | matchUnpaused data => exact passed_conforms _ "MatchUnpaused" _ rfl (by decide) rfl
  | playerJoined data => exact passed_conforms _ "PlayerJoined" _ rfl (by decide) rfl
  | playerLeft data => exact passed_conforms _ "PlayerLeft" _ rfl (by decide) rfl
  | podiumStart data => exact message_conforms _ _ _ rfl (hguid data)
  | replayCreated data => exact message_conforms _ _ _ rfl (replayCreatedPayload_fits data)
  | roundStarted data => exact message_conforms _ _ _ rfl rfl
  | statfeedEvent data => exact message_conforms _ _ _ rfl (statfeedPayload_fits data)
  | unknown data => exact passed_conforms _ data.event _ rfl (h data rfl) rfl

/-! ## The overlay's schema -/

/-- What fits the one dialect fits the other. -/
structure Dialect.Within (d e : Dialect) : Prop where
  matchGuid : FieldBelow ("match_guid",d.matchGuid) ("match_guid",e.matchGuid)
  shortcut : FieldBelow ("shortcut",d.shortcut) ("shortcut",e.shortcut)
  ballLocation : FieldBelow ("location",d.ballLocation) ("location",e.ballLocation)
  noContest : FieldBelow ("no_contest",d.noContest) ("no_contest",e.noContest)
  fileName : FieldBelow ("file_name",d.fileName) ("file_name",e.fileName)
  date : FieldBelow ("date",d.date) ("date",e.date)

section Within

variable (d e : Dialect) (h : d.Within e)
include h

theorem player_below : Below (player d) (player e) := by
  refine below_record _ _ ?_
  simp [h.shortcut, fieldBelow_refl]

theorem ball_below : Below (ballShape d) (ballShape e) := by
  refine below_record _ _ ?_
  simp [h.ballLocation, fieldBelow_refl]

theorem game_below : Below (gameShape d) (gameShape e) := by
  refine below_record _ _ ?_
  have hball := fieldBelow_required "ball" _ _ (ball_below d e h) rfl
  simp [hball, fieldBelow_refl]

theorem updateState_below : Below (updateStateShape d) (updateStateShape e) := by
  refine below_record _ _ ?_
  have hgame := fieldBelow_required "game" _ _ (game_below d e h) rfl
  have hplayers := fieldBelow_required "players" _ _
    (below_keyed "id" _ _ (player_below d e h)) rfl
  simp [h.matchGuid, hgame, hplayers, fieldBelow_refl]

/-- Every message is the same record, but for the members that differ. -/
theorem schema_below : List.Forall₂ FieldBelow (schema d) (schema e) := by
  have hguid : ∀ name, FieldBelow (name,matchOnly d) (name,matchOnly e) := by
    intro name
    refine fieldBelow_required name _ _ (below_record _ _ ?_) rfl
    simp [h.matchGuid]
  have hmessage : ∀ name fields fields',
      List.Forall₂ FieldBelow (("match_guid",d.matchGuid)::fields)
        (("match_guid",e.matchGuid)::fields') →
      FieldBelow (name,.record (("match_guid",d.matchGuid)::fields))
        (name,.record (("match_guid",e.matchGuid)::fields')) :=
    fun name _ _ hf => fieldBelow_required name _ _ (below_record _ _ hf) rfl
  have hstate := fieldBelow_required "game:update_state" _ _ (updateState_below d e h) rfl
  simp only [schema, List.forall₂_cons, List.Forall₂.nil, hguid, hstate, fieldBelow_refl,
    true_and, and_true]
  refine ⟨hmessage _ _ _ ?_,hmessage _ _ _ ?_,hmessage _ _ _ ?_,hmessage _ _ _ ?_,
    hmessage _ _ _ ?_⟩
  all_goals simp [h.matchGuid, h.noContest, h.fileName, h.date, fieldBelow_refl]

theorem conforms_within (x : SosEnvelope) (hx : Conforms d x) : Conforms e x := by
  intro t ht
  obtain ⟨s,hs,hst⟩ := lookup_below _ _ (schema_below d e h) x.event t ht
  exact hst x.data (hx s hs)

end Within

theorem broadcaster_within : broadcaster.Within overlay where
  matchGuid := fieldBelow_refl _
  shortcut := fieldBelow_required _ _ _ (below_left _ _) rfl
  ballLocation := fieldBelow_required _ _ _ (below_left _ _) rfl
  noContest := fieldBelow_required _ _ _ (below_optional _ _ (below_refl _)) rfl
  fileName := fieldBelow_required _ _ _ (below_optional _ _ (below_refl _)) rfl
  date := fieldBelow_required _ _ _ (below_optional _ _ (below_refl _)) rfl

/-! ## Runs of the broadcaster -/

/-- The texts are those of messages that an overlay can read. -/
def Readable (d : Dialect) (write : SosEnvelope → String) (texts : List String) : Prop :=
  ∃ es : List SosEnvelope, texts = es.map write ∧ ∀ e ∈ es, Conforms d e ∧ Conforms overlay e

theorem readable_sublist (d : Dialect) (write : SosEnvelope → String) (texts texts' : List String)
    (h : Readable d write texts) (hsub : texts'.Sublist texts) : Readable d write texts' := by
  obtain ⟨es,rfl,hes⟩ := h
  obtain ⟨es',hsub',rfl⟩ := List.sublist_map_iff.mp hsub
  exact ⟨es',rfl,fun e he => hes e (hsub'.subset he)⟩

theorem translations_readable (write : SosEnvelope → String) (events : List StatsEvent)
    (h : ∀ event ∈ events, Plain event) :
    Readable broadcaster write ((events.flatMap translation).map write) := by
  refine ⟨_,rfl,fun e he => ?_⟩
  obtain ⟨event,hevent,he⟩ := List.mem_flatMap.mp he
  have hown := translation_conforms event (h event hevent) e he
  exact ⟨hown,conforms_within broadcaster overlay broadcaster_within e hown⟩

/-- However the tasks of the broadcaster take turns, everything that is offered
and everything that a client is written is the text of a message that fits the
schema of its name, as long as the game gives no event of its own an SOS name. -/
theorem broadcast_conforms (maxEvents : Option ℕ) (write : SosEnvelope → String) (capacity : ℕ)
    (acts : List (Act Occurrence)) (s : System Main) (h : Runs maxEvents write capacity acts s)
    (hp : ∀ event ∈ returned (occurrences acts), Plain event) :
    Readable broadcaster write s.server.outgoing.offered ∧
    ∀ c ∈ s.server.clients, Readable broadcaster write c.written := by
  obtain ⟨emitted,hprod,hacc⟩ := run_accounted maxEvents write capacity acts s h
  have hall := translations_readable write (returned (occurrences acts)) hp
  have hoffered : Readable broadcaster write s.server.outgoing.offered := by
    rw [hprod.offered]
    exact readable_sublist _ _ _ _ hall hacc.atMost.sublist
  refine ⟨hoffered,fun c hc => ?_⟩
  have hkept := run_kept (mainTask maxEvents write) capacity .start acts s h
  exact readable_sublist _ _ _ _ hoffered
    ((kept_sublist capacity _ c (hkept.clients c hc)).trans (List.drop_sublist _ _))

theorem lateClient_conforms : ∃ s, Runs none SosEnvelope.event 1024 lateClient s ∧
    s.server.clients.map OverlayClients.Client.written = [["game:post_countdown_begin"]] ∧
    ∀ c ∈ s.server.clients, Readable broadcaster SosEnvelope.event c.written := by
  refine ⟨_,rfl,rfl,?_⟩
  refine (broadcast_conforms none SosEnvelope.event 1024 lateClient _ rfl ?_).2
  intro event hevent
  cases List.mem_singleton.mp hevent
  exact fun u hu => by cases hu

end RlStatsApi.SosSchema
