import RlStatsApi.MockServer
import RlStatsApi.SosSchema

/-!
# The schema of the mock messages

The templates fit the schema of the mock server, and so does every update
state that is drawn: the entries that a payload takes over from earlier ticks
fit as they were drawn. An overlay that reads the broadcaster's messages
reads those of the mock server as well.
-/

set_option autoImplicit false

namespace RlStatsApi.MockSchema
open RlStatsApi.BinaryFloat RlStatsApi.JsonValue RlStatsApi.CheckedState RlStatsApi.SosTranslation
open RlStatsApi.JsonShape RlStatsApi.JsonShape.Shape RlStatsApi.SosSchema
open RlStatsApi.MockBroadcast RlStatsApi.MockDraws RlStatsApi.MockRoster

/-- Short names for shortcuts, and an attitude of the ball. -/
def mock : Dialect :=
  ⟨.text,.text,placement,.optional .flag,.optional .text,.optional .text⟩

theorem mock_within : mock.Within overlay where
  matchGuid := fieldBelow_required _ _ _ (below_left _ _) rfl
  shortcut := fieldBelow_required _ _ _ (below_right _ _) rfl
  ballLocation := fieldBelow_required _ _ _ (below_right _ _) rfl
  noContest := fieldBelow_refl _
  fileName := fieldBelow_refl _
  date := fieldBelow_refl _

/-! ## Drawn values -/

/-- What is drawn for a field. -/
def FieldDrawn (f : String × Shape) (m : String × Gen Value) : Prop :=
  m.1 = f.1 ∧ Draws m.2 (fun v => fits f.2 v = true)

theorem members_written (fields : List (String × Shape)) (members : List (String × Gen Value))
    (h : List.Forall₂ FieldDrawn fields members) :
    Draws (members.mapM (fun m => (m.1,·) <$> m.2)) (List.Forall₂ Written fields) := by
  induction h with
  | nil =>
    rw [List.mapM_nil]
    exact within_pure frame [] _ .nil
  | @cons f m fields members hf _ ih =>
    rw [List.mapM_cons]
    have hm : Draws ((m.1,·) <$> m.2) (Written f) :=
      within_map frame hf.2 fun v hv => ⟨hf.1,hv⟩
    refine within_bind frame hm fun entry he => ?_
    refine within_bind frame ih fun entries hes => ?_
    exact within_pure frame _ _ (.cons he hes)

theorem object_fits (fields : List (String × Shape)) (members : List (String × Gen Value))
    (hk : (fields.map Prod.fst).Nodup) (h : List.Forall₂ FieldDrawn fields members) :
    Draws (object members) (fun v => fits (.record fields) v = true) :=
  within_bind frame (members_written fields members h) fun _ he =>
    within_pure frame _ _ (fits_ofMembers fields _ hk he)

theorem pure_fits (s : Shape) (v : Value) (h : fits s v = true) :
    Draws (pure v) (fun v => fits s v = true) := within_pure frame v _ h

theorem fits_ofU64 (n : U64) : fits .integer (.ofU64 n) = true := rfl

theorem count_fits (min max : U64) (h : min.val ≤ max.val) (hw : max.val-min.val+1 < 2^64) :
    Draws (MockBroadcast.count min max) (fun v => fits .integer v = true) :=
  within_map frame (rangeU64_draws min max h hw) fun n _ => fits_ofU64 n

theorem flag_fits (numerator denominator : U64) :
    Draws (flag numerator denominator) (fun v => fits .flag v = true) :=
  within_map frame (chance_draws numerator denominator) fun _ _ => rfl

theorem coordinate_fits (min max : I64) (h : min.val ≤ max.val) (hw : max.val-min.val+1 < 2^63) :
    Draws (MockBroadcast.coordinate min max) (fun v => fits SosSchema.coordinate v = true) :=
  within_map frame (rangeI64_draws min max h hw) fun _ _ => fits_coordinate _

theorem angle_fits : Draws angle (fun v => fits SosSchema.coordinate v = true) :=
  within_map frame (rangeI64_draws _ _ (by decide) (by decide)) fun _ _ => fits_coordinate _

theorem location_fits (zMin : I64) (h : zMin.val ≤ 2044) (hw : 2044-zMin.val+1 < 2^63) :
    Draws (location zMin) (fun v => fits placement v = true) := by
  refine object_fits _ _ (by decide) ?_
  simp only [List.forall₂_cons, List.Forall₂.nil, FieldDrawn, true_and, and_true]
  exact ⟨coordinate_fits _ _ (by decide) (by decide),coordinate_fits _ _ (by decide) (by decide),
    coordinate_fits _ _ h hw,angle_fits,angle_fits,angle_fits⟩

theorem playerPayload_fits (identity : MockPlayer) (attacker : String) :
    Draws (MockBroadcast.playerPayload identity attacker)
      (fun v => fits (player mock) v = true) := by
  refine object_fits _ _ (by decide) ?_
  have hc := fun min max => count_fits min max
  simp only [List.forall₂_cons, List.Forall₂.nil, FieldDrawn, true_and, and_true]
  refine ⟨pure_fits _ _ rfl,pure_fits _ _ rfl,pure_fits _ _ rfl,pure_fits _ _ rfl,hc _ _ ?_ ?_,
    hc _ _ ?_ ?_,hc _ _ ?_ ?_,hc _ _ ?_ ?_,hc _ _ ?_ ?_,hc _ _ ?_ ?_,hc _ _ ?_ ?_,hc _ _ ?_ ?_,
    hc _ _ ?_ ?_,hc _ _ ?_ ?_,pure_fits _ _ rfl,flag_fits _ _,flag_fits _ _,flag_fits _ _,
    pure_fits _ _ rfl,pure_fits _ _ rfl,flag_fits _ _,flag_fits _ _,location_fits _ ?_ ?_⟩
  all_goals decide

theorem ball_fits : Draws ball (fun v => fits (ballShape mock) v = true) := by
  refine object_fits _ _ (by decide) ?_
  simp only [List.forall₂_cons, List.Forall₂.nil, FieldDrawn, true_and, and_true]
  exact ⟨location_fits _ (by decide) (by decide),count_fits _ _ (by decide) (by decide),
    count_fits _ _ (by decide) (by decide)⟩

theorem teamEntry_fits (name primary : String) (score : U64) :
    fits team (teamEntry name primary score) = true := by
  refine fits_ofMembers _ _ (by decide) ?_
  simp [Written, fits_ofU64]

theorem game_fits (r : UpdateStateRandomizer) :
    Draws (game r) (fun v => fits (gameShape mock) v = true) := by
  refine object_fits _ _ (by decide) ?_
  have hteams : fits (.tuple [team,team]) (.array [teamEntry "Blue" "1873FF" r.blueScore,
      teamEntry "Orange" "C26418" r.orangeScore]) = true := by
    simp [fits, fitsItems, teamEntry_fits]
  simp only [List.forall₂_cons, List.Forall₂.nil, FieldDrawn, true_and, and_true]
  exact ⟨pure_fits _ _ rfl,pure_fits _ _ (fits_integer _),pure_fits _ _ (fits_integer _),
    pure_fits _ _ rfl,flag_fits _ _,pure_fits _ _ rfl,pure_fits _ _ rfl,pure_fits _ _ rfl,
    pure_fits _ _ rfl,ball_fits,pure_fits _ _ hteams⟩

theorem updateState_fits (r : UpdateStateRandomizer) (playerMap : Members)
    (h : fits (.keyed "id" (player mock)) (.object playerMap) = true) :
    Draws (updateState r playerMap) (fun v => fits (updateStateShape mock) v = true) := by
  refine object_fits _ _ (by decide) ?_
  simp only [List.forall₂_cons, List.Forall₂.nil, FieldDrawn, true_and, and_true]
  exact ⟨pure_fits _ _ rfl,pure_fits _ _ rfl,game_fits r,pure_fits _ _ h⟩

/-! ## Ticks -/

/-- The entries that the state keeps fit. -/
def Fitted (r : UpdateStateRandomizer) : Prop :=
  ∀ id e, r.lastPlayerPayloadById.lookup id = some e → fits (player mock) e = true

theorem fitted_of_same (r r' : UpdateStateRandomizer)
    (h : r'.lastPlayerPayloadById = r.lastPlayerPayloadById) (hr : Fitted r) : Fitted r' := by
  intro id e he
  rw [h] at he
  exact hr id e he

theorem redrawn_same (r r' : UpdateStateRandomizer) (h : Redrawn r r') :
    r'.lastPlayerPayloadById = r.lastPlayerPayloadById := by
  obtain ⟨x,rfl⟩ := h
  rfl

theorem fitted_recorded (p : MockPlayer) (payload : Value) (r : UpdateStateRandomizer)
    (h : Fitted r) (hp : fits (player mock) payload = true) : Fitted (recorded p payload r) := by
  intro id e he
  rw [lookup_recorded] at he
  split_ifs at he with hid
  · cases he
    exact hp
  · exact h id e he

theorem drawActive_fitted (ids : List String) (hl : Lineup ids) (r : UpdateStateRandomizer)
    (hr : Pooled r) (h : Fitted r) : Returns (drawActive ids) r (fun _ r' => Fitted r') := by
  refine returns_mono (returns_foldlM _ ids.zipIdx
    (fun _ _ r' => Pooled r' ∧ Fitted r') ?_ [] r ⟨hr,h⟩) fun _ _ hr' => hr'.2
  rintro done ⟨id,index⟩ rest fresh r1 hsplit ⟨hp1,h1⟩
  have hmem : (id,index) ∈ ids.zipIdx := by rw [hsplit]; simp
  have hi : ids[index]? = some id := List.mem_zipIdx_iff_getElem?.mp hmem
  obtain ⟨p,hp,rfl⟩ := hl.pooled id (List.mem_of_getElem? hi)
  refine within_then (drawAttacker_draws ids hl p hp index hi) hp1 ?_
  intro name r2 hr2 _
  have hp2 := frame.keeps r1 r2 hr2 hp1
  refine within_then (identityFor_draws p hp) hp2 ?_
  rintro _ r3 hr3 rfl
  have hp3 := frame.keeps r2 r3 hr3 hp2
  refine within_then (playerPayload_fits _ name) hp3 ?_
  intro payload r4 hr4 hfit
  have hp4 := frame.keeps r3 r4 hr4 hp3
  have h4 : Fitted r4 := fitted_of_same r1 r4 (by
    rw [redrawn_same r3 r4 hr4, redrawn_same r2 r3 hr3, redrawn_same r1 r2 hr2]) h1
  rw [returns_bind, returns_modify, returns_pure]
  exact ⟨hp4,fitted_recorded _ payload r4 h4 hfit⟩

/-- The payload shows the entries that the state keeps, under their ids. -/
theorem collectPlayers_fits (ids : List String) (r r' : UpdateStateRandomizer) (fresh : Members)
    (hf : Fresh r ids fresh r') (h : Fitted r') :
    fits (.keyed "id" (player mock)) (.object (collectPlayers fresh r')) = true := by
  rw [fits_keyed_iff]
  intro p hp
  have hn := SortedAssoc.nodup_keys _ (collectPlayers_sorted fresh r')
  have hl := SortedAssoc.lookup_of_mem _ hn p hp
  rw [collectPlayers_lookup r ids fresh r' hf] at hl
  refine ⟨h p.1 p.2 hl,?_⟩
  obtain ⟨q,_,hid,hc⟩ := hf.roster.known p.1 p.2 hl
  rw [hc.id, hid]
  rfl

theorem drawTick_fits (r : UpdateStateRandomizer) (hr : Roster r) (h : Fitted r) :
    Returns drawTick r (fun t r' => Roster r' ∧ Fitted r' ∧
      fits (updateStateShape mock) t.payload = true) := by
  refine returns_then (advanceClock_returns r hr) fun _ r1 h1 => ?_
  refine returns_then (advanceScores_returns r1 h1.1) fun _ r2 h2 => ?_
  refine within_then drawActiveIds_draws h2.1.pooled fun ids r3 hr3 hl => ?_
  have h3 := roster_redrawn r2 r3 h2.1 hr3
  have hf3 : Fitted r3 :=
    fitted_of_same r r3 ((redrawn_same r2 r3 hr3).trans (h2.2.trans h1.2)) h
  refine returns_then (returns_and (drawActive_returns ids hl r3 h3)
    (drawActive_fitted ids hl r3 h3.pooled hf3)) fun fresh r4 h4 => ?_
  rw [returns_bind, returns_get]
  refine within_then (updateState_fits r4 _ (collectPlayers_fits ids r3 r4 fresh h4.1 h4.2))
    h4.1.roster.pooled fun payload r5 hr5 hp => ?_
  rw [returns_pure]
  exact ⟨roster_redrawn r4 r5 h4.1.roster hr5,
    fitted_of_same r4 r5 (redrawn_same r4 r5 hr5) h4.2,hp⟩

/-! ## Templates -/

/-- A number with a fraction, read as a quotient. -/
def decimal (numerator : ℤ) (denominator : ℤ) : Value :=
  .ofF64 ((ofInt binary64 numerator).div (ofInt binary64 denominator))

@[simp] theorem fits_decimal (numerator denominator : ℤ) :
    fits SosSchema.coordinate (decimal numerator denominator) = true := fits_coordinate _

def matchData : Value := .ofMembers [("match_guid",.string "M-EXAMPLE-123")]

def ballTemplate : Value :=
  .ofMembers [
    ("location",.ofMembers [("X",decimal 1234 10),("Y",decimal (-4567) 10),("Z",decimal 950 10),
      ("pitch",decimal 0 10),("roll",decimal 0 10),("yaw",decimal 157 100)]),
    ("speed",.ofU64 1420),("team",.ofU64 1)]

def strikerTemplate : Value :=
  .ofMembers [("name",.string "BlueStriker"),("id",.string "BlueStriker_1"),
    ("primaryID",.string "Steam|111|0"),("team",.ofU64 0),("score",.ofU64 520),
    ("goals",.ofU64 1),("shots",.ofU64 3),("assists",.ofU64 0),("saves",.ofU64 1),
    ("touches",.ofU64 12),("cartouches",.ofU64 9),("demos",.ofU64 0),("boost",.ofU64 47),
    ("speed",.ofU64 1325),("hasCar",.bool true),("isSonic",.bool false),
    ("isPowersliding",.bool false),("isDead",.bool false),("attacker",.string ""),
    ("shortcut",.string "BS"),("onGround",.bool true),("onWall",.bool false),
    ("location",.ofMembers [("X",decimal (-12000) 10),("Y",decimal 3500 10),("Z",decimal 180 10),
      ("pitch",decimal 0 10),("roll",decimal 0 10),("yaw",decimal 241 100)])]

def updateStateTemplate : Value :=
  .ofMembers [("match_guid",.string "M-EXAMPLE-123"),("hasGame",.bool true),
    ("game",.ofMembers [("arena",.string "DFH Stadium"),("time",.ofU64 287),
      ("time_seconds",.ofU64 287),("isOT",.bool false),("isReplay",.bool false),
      ("hasWinner",.bool false),("winner",.string ""),("hasTarget",.bool true),
      ("target",.string "Ball"),("ball",ballTemplate),
      ("teams",.array [teamEntry "Blue" "1873FF" 2,teamEntry "Orange" "C26418" 1])]),
    ("players",.ofMembers [("BlueStriker_1",strikerTemplate)])]

def ballHitTemplate : Value :=
  .ofMembers [("match_guid",.string "M-EXAMPLE-123"),
    ("player",.ofMembers [("name",.string "BlueStriker"),("id",.string "BlueStriker_1")]),
    ("ball",.ofMembers [
      ("location",.ofMembers [("X",decimal 14502 10),("Y",decimal (-2109) 10),
        ("Z",decimal 1304 10)]),
      ("pre_hit_speed",.ofU64 980),("post_hit_speed",.ofU64 1520)])]

def statfeedTemplate : Value :=
  .ofMembers [("match_guid",.string "M-EXAMPLE-123"),("event_name",.string "Demolish"),
    ("type",.string "Demolish"),
    ("main_target",.ofMembers [("name",.string "BlueStriker"),("id",.string "BlueStriker_1"),
      ("team_num",.ofU64 0)]),
    ("secondary_target",.ofMembers [("name",.string "OrangeKeeper"),
      ("id",.string "OrangeKeeper_5"),("team_num",.ofU64 1)])]

def goalScoredTemplate : Value :=
  .ofMembers [("match_guid",.string "M-EXAMPLE-123"),("goalspeed",.ofU64 2010),
    ("goaltime",decimal 450 10),
    ("impact_location",.ofMembers [("X",decimal 2 10),("Y",decimal 7 10)]),
    ("scorer",.ofMembers [("name",.string "BlueStriker"),("id",.string "BlueStriker_1"),
      ("teamnum",.ofU64 0)]),
    ("assister",.ofMembers [("name",.string "BlueMid"),("id",.string "BlueMid_3"),
      ("teamnum",.ofU64 0)]),
    ("ball_last_touch",.ofMembers [("player",.string "BlueStriker_1"),("speed",.ofU64 1980)])]

/-- The messages of the file that is built into the program. -/
def templateEnvelopes : List SosEnvelope :=
  [sosVersionEnvelope,⟨"game:match_created",matchData⟩,⟨"game:initialized",matchData⟩,
    ⟨"game:pre_countdown_begin",matchData⟩,⟨"game:post_countdown_begin",matchData⟩,
    ⟨"game:update_state",updateStateTemplate⟩,⟨"game:ball_hit",ballHitTemplate⟩,
    ⟨"game:statfeed_event",statfeedTemplate⟩,⟨"game:goal_scored",goalScoredTemplate⟩,
    ⟨"game:replay_start",matchData⟩,⟨"game:replay_will_end",matchData⟩,
    ⟨"game:replay_end",matchData⟩,
    ⟨"game:match_ended",.ofMembers [("match_guid",.string "M-EXAMPLE-123"),
      ("winner_team_num",.ofU64 0)]⟩,
    ⟨"game:podium_start",matchData⟩,⟨"game:match_destroyed",matchData⟩,
    ⟨"game:replay_created",matchData⟩,⟨"game:round_started_go",.string "game_round_started_go"⟩]

theorem matchData_fits : fits (matchOnly mock) matchData = true := by decide

theorem placementTemplate_fits (x y z pitch roll yaw : ℤ) :
    fits placement (.ofMembers [("X",decimal x 10),("Y",decimal y 10),("Z",decimal z 10),
      ("pitch",decimal pitch 10),("roll",decimal roll 10),("yaw",decimal yaw 100)]) = true :=
  fits_ofMembers _ _ (by decide) (by simp [Written])

theorem strikerTemplate_fits : fits (player mock) strikerTemplate = true := by
  refine fits_ofMembers _ _ (by decide) ?_
  simp [Written, mock, placementTemplate_fits, fits_ofU64]

theorem updateStateTemplate_fits : fits (updateStateShape mock) updateStateTemplate = true := by
  have hball : fits (ballShape mock) ballTemplate = true := by
    refine fits_ofMembers _ _ (by decide) ?_
    simp [Written, mock, placementTemplate_fits, fits_ofU64]
  have hteams : fits (.tuple [team,team]) (.array [teamEntry "Blue" "1873FF" 2,
      teamEntry "Orange" "C26418" 1]) = true := by
    simp [fits, fitsItems, teamEntry_fits]
  have hplayers : fits (.keyed "id" (player mock))
      (.ofMembers [("BlueStriker_1",strikerTemplate)]) = true := by
    refine (fits_keyed_iff _ _ _).mpr fun p hp => ?_
    cases List.mem_singleton.mp hp
    refine ⟨strikerTemplate_fits,?_⟩
    simp only [strikerTemplate, Value.get_ofMembers]
    rfl
  refine fits_ofMembers _ _ (by decide) ?_
  simp only [List.forall₂_cons, List.Forall₂.nil, Written, hplayers, fits_flag, true_and,
    and_true]
  refine ⟨rfl,fits_ofMembers _ _ (by decide) ?_⟩
  simp [Written, hball, hteams, fits_ofU64]

theorem ballHitTemplate_fits : fits (ballHit mock) ballHitTemplate = true := by
  have hvector : fits vector3 (.ofMembers [("X",decimal 14502 10),("Y",decimal (-2109) 10),
      ("Z",decimal 1304 10)]) = true := fits_ofMembers _ _ (by decide) (by simp [Written])
  refine fits_ofMembers _ _ (by decide) ?_
  simp only [List.forall₂_cons, List.Forall₂.nil, Written, true_and, and_true]
  refine ⟨rfl,rfl,fits_ofMembers _ _ (by decide) ?_⟩
  simp [Written, hvector, fits_ofU64]

theorem goalScoredTemplate_fits : fits (goalScored mock) goalScoredTemplate = true := by
  have himpact : fits (.record [("X",SosSchema.coordinate),("Y",SosSchema.coordinate)])
      (.ofMembers [("X",decimal 2 10),("Y",decimal 7 10)]) = true :=
    fits_ofMembers _ _ (by decide) (by simp [Written])
  refine fits_ofMembers _ _ (by decide) ?_
  simp only [List.forall₂_cons, List.Forall₂.nil, Written, himpact, fits_decimal, true_and,
    and_true]
  exact ⟨rfl,rfl,rfl,rfl,rfl⟩

/-- Every template fits the schema. -/
theorem template_conforms : ∀ t ∈ templateEnvelopes, Conforms mock t := by
  have hmatch : ∀ name, (schema mock).lookup name = some (matchOnly mock) →
      Conforms mock ⟨name,matchData⟩ :=
    fun name h => conforms_of mock name _ _ h matchData_fits
  simp only [templateEnvelopes, List.forall_mem_cons]
  exact ⟨conforms_of mock _ _ _ rfl rfl,hmatch _ rfl,hmatch _ rfl,hmatch _ rfl,hmatch _ rfl,
    conforms_of mock _ _ _ rfl updateStateTemplate_fits,
    conforms_of mock _ _ _ rfl ballHitTemplate_fits,conforms_of mock _ _ _ rfl (by decide),
    conforms_of mock _ _ _ rfl goalScoredTemplate_fits,hmatch _ rfl,hmatch _ rfl,hmatch _ rfl,
    conforms_of mock _ _ _ rfl (by decide),hmatch _ rfl,hmatch _ rfl,
    conforms_of mock _ _ _ rfl (by decide),conforms_of mock _ _ _ rfl rfl,by simp⟩

/-! ## Runs of the mock server -/

section Runs
open RlStatsApi.OverlayClients RlStatsApi.MockServer

theorem envelopeForSend_conforms (template : SosEnvelope) (ht : Conforms mock template)
    (r : UpdateStateRandomizer) (hr : Roster r) (h : Fitted r) :
    Returns (envelopeForSend template) r (fun e r' => Roster r' ∧ Fitted r' ∧ Conforms mock e) := by
  unfold envelopeForSend
  split_ifs with he
  · rw [returns_bind, nextUpdateStatePayload, returns_map]
    refine returns_mono (drawTick_fits r hr h) fun t r' ht' => ?_
    rw [returns_pure]
    refine ⟨ht'.1,ht'.2.1,?_⟩
    rw [he]
    exact conforms_of mock _ _ _ rfl ht'.2.2
  · rw [returns_pure]
    exact ⟨hr,h,ht⟩

theorem sendFirst_conforms (scenario : List SosEnvelope) (hs : scenario ≠ [])
    (hc : ∀ t ∈ scenario, Conforms mock t) (seed : BitVec 64) (matchGuid : String) (k : ℕ) :
    Returns (sendFirst scenario k) (.new seed matchGuid) (fun es r =>
      Roster r ∧ Fitted r ∧ ∀ e ∈ es, Conforms mock e) := by
  induction k with
  | zero =>
    exact (returns_pure _ _ _).mpr ⟨roster_new seed matchGuid,fun id e h => (by cases h),
      fun e h => (by cases h)⟩
  | succ k ih =>
    rw [sendFirst]
    refine returns_then ih fun es r hes => ?_
    have hlt : k%scenario.length < scenario.length := Nat.mod_lt _ (List.length_pos_of_ne_nil hs)
    have ht : scenario[k%scenario.length]? = some scenario[k%scenario.length] :=
      List.getElem?_eq_getElem hlt
    rw [returns_bind, returns_lift]
    refine ⟨_,ht,?_⟩
    refine returns_then (envelopeForSend_conforms _ (hc _ (List.getElem_mem hlt)) r hes.1 hes.2.1)
      fun e r' he => ?_
    rw [returns_pure]
    refine ⟨he.1,he.2.1,?_⟩
    rw [List.forall_mem_append, List.forall_mem_singleton]
    exact ⟨hes.2.2,he.2.2⟩

theorem selected_mem (templates scenario : List SosEnvelope) (filters : List String)
    (h : selectScenario templates filters = .ok scenario) :
    ∀ t ∈ scenario, t ∈ templates := by
  unfold selectScenario at h
  split_ifs at h
  · cases h
    exact fun t ht => ht
  · simp only at h
    split_ifs at h
    cases h
    exact fun t ht => List.mem_of_mem_filter ht

/-- For every choice of events, every seed and every order of the tasks: what
the mock server offers and what its clients are written fits its schema, and
the one that an overlay may rely on. -/
theorem mock_conforms (cli : CliOptions) (scenario : List SosEnvelope)
    (write : SosEnvelope → String) (capacity : ℕ)
    (hsel : selectScenario templateEnvelopes cli.eventFilters = .ok scenario) (seed : BitVec 64)
    (acts : List (Act Occurrence)) (s : System Main)
    (h : Runs cli scenario write capacity seed acts s) :
    Readable mock write s.server.outgoing.offered ∧
    ∀ c ∈ s.server.clients, Readable mock write c.written := by
  have hs := selected_nonempty templateEnvelopes scenario cli.eventFilters hsel
    (List.cons_ne_nil _ _)
  have hc : ∀ t ∈ scenario, Conforms mock t :=
    fun t ht => template_conforms t (selected_mem _ scenario _ hsel t ht)
  obtain ⟨emitted,hp,hplayed⟩ := run_played cli scenario write capacity hs seed acts s h
  obtain ⟨es,hes,hpay⟩ := hplayed.sent
  obtain ⟨es',r,hes',_,_,hall⟩ :=
    sendFirst_conforms scenario hs hc seed (matchGuidForScenario scenario) s.main.sent
  rw [hes] at hes'
  cases hes'
  have hoffered : Readable mock write s.server.outgoing.offered :=
    ⟨es,hp.offered.trans hpay,fun e he =>
      ⟨hall e he,conforms_within mock overlay mock_within e (hall e he)⟩⟩
  refine ⟨hoffered,fun c hc => ?_⟩
  have hkept := run_kept (mainTask cli scenario write) capacity _ acts s h
  exact readable_sublist _ _ _ _ hoffered
    ((kept_sublist capacity _ c (hkept.clients c hc)).trans (List.drop_sublist _ _))

def goalOptions : CliOptions := ⟨"0.0.0.0",49122,1000,none,["game:goal_scored"],true,false⟩

theorem goal_conforms : ∃ s, Runs goalOptions [⟨"game:goal_scored",goalScoredTemplate⟩]
      SosEnvelope.event 1024 7 [.main .tick,.main .tick] s ∧
    s.server.outgoing.offered = ["game:goal_scored","game:goal_scored"] ∧
    Readable mock SosEnvelope.event s.server.outgoing.offered :=
  ⟨_,rfl,rfl,(mock_conforms goalOptions [⟨"game:goal_scored",goalScoredTemplate⟩]
    SosEnvelope.event 1024 rfl 7 [.main .tick,.main .tick] _ rfl).1⟩

end Runs

end RlStatsApi.MockSchema
