import RlStatsApi.EventRoundTrip
import RlStatsApi.RlEvents
import RlStatsApi.WrittenValues

/-!
# The printer at both ends of a pipe

What the event printer writes as JSON it can read: each printed line is read
as the event it was printed for, so that a second printer prints those of the
first that pass its own filter. The output of a connection starts with one
line that is no event, at which a strict reader stops.
-/

set_option autoImplicit false

namespace RlStatsApi.EventPipe
open RlStatsApi.TextLines RlStatsApi.JsonValue RlStatsApi.SerdeCodec RlStatsApi.Error
open RlStatsApi.EventData RlStatsApi.EventParsing RlStatsApi.EventRoundTrip
open RlStatsApi.EventFilters RlStatsApi.CountedOutput RlStatsApi.DecimalText RlStatsApi.RlEvents
open RlStatsApi.StreamFraming RlStatsApi.StreamClient RlStatsApi.RelayLoop RlStatsApi.WrittenValues
open RlStatsApi.TextReader RlStatsApi.EnvelopeReading

/-! ## Payloads -/

theorem empty_object : (Value.object []).Canonical := .object _ .nil (by simp)

@[simp] theorem matchGuidField_tidy : FieldTidy matchGuidField := by
  simp [matchGuidField]

@[simp] theorem matchOnlyData_tidy : Tidy MatchOnlyData.codec := by
  refine via_tidy _ _ _ (fun _ => rfl) (flattened_tidy _ ?_)
  repeat refine cons_tidy _ _ (by simp) ?_
  exact nil_tidy

@[simp] theorem vector3_tidy : Tidy Vector3.codec := by
  refine via_tidy _ _ _ (fun _ => rfl) (plain_tidy _ ?_)
  repeat refine cons_tidy _ _ (by simp) ?_
  exact nil_tidy

@[simp] theorem vector3_default_canonical : (Vector3.codec.ser .default).Canonical :=
  vector3_tidy (.object []) .default empty_object rfl

@[simp] theorem playerRef_tidy : Tidy PlayerRef.codec := by
  refine via_tidy _ _ _ (fun _ => rfl) (flattened_tidy _ ?_)
  repeat refine cons_tidy _ _ (by simp) ?_
  exact nil_tidy

@[simp] theorem playerRef_default_canonical : (PlayerRef.codec.ser .default).Canonical :=
  playerRef_tidy (.object []) .default empty_object rfl

@[simp] theorem lastTouch_tidy : Tidy LastTouch.codec := by
  refine via_tidy _ _ _ (fun _ => rfl) (flattened_tidy _ ?_)
  repeat refine cons_tidy _ _ (by simp) ?_
  exact nil_tidy

@[simp] theorem lastTouch_default_canonical : (LastTouch.codec.ser .default).Canonical :=
  lastTouch_tidy (.object []) .default empty_object rfl

@[simp] theorem ballHitBall_tidy : Tidy BallHitBall.codec := by
  refine via_tidy _ _ _ (fun _ => rfl) (flattened_tidy _ ?_)
  repeat refine cons_tidy _ _ (by simp) ?_
  exact nil_tidy

theorem location_object : (Value.object [("Location",.object [])]).Canonical :=
  .object _ (List.pairwise_singleton _ _) (by simp [empty_object])

@[simp] theorem ballHitBall_default_canonical : (BallHitBall.codec.ser .default).Canonical :=
  ballHitBall_tidy _ .default location_object rfl

@[simp] theorem ballHitData_tidy : Tidy BallHitData.codec := by
  refine via_tidy _ _ _ (fun _ => rfl) (flattened_tidy _ ?_)
  repeat refine cons_tidy _ _ (by simp) ?_
  exact nil_tidy

@[simp] theorem boostPickupData_tidy : Tidy BoostPickupData.codec := by
  refine via_tidy _ _ _ (fun _ => rfl) (flattened_tidy _ ?_)
  repeat refine cons_tidy _ _ (by simp) ?_
  exact nil_tidy

@[simp] theorem clockUpdatedSecondsData_tidy : Tidy ClockUpdatedSecondsData.codec := by
  refine via_tidy _ _ _ (fun _ => rfl) (flattened_tidy _ ?_)
  repeat refine cons_tidy _ _ (by simp) ?_
  exact nil_tidy

@[simp] theorem crossbarHitData_tidy : Tidy CrossbarHitData.codec := by
  refine via_tidy _ _ _ (fun _ => rfl) (flattened_tidy _ ?_)
  repeat refine cons_tidy _ _ (by simp) ?_
  exact nil_tidy

@[simp] theorem goalScoredData_tidy : Tidy GoalScoredData.codec := by
  refine via_tidy _ _ _ (fun _ => rfl) (flattened_tidy _ ?_)
  repeat refine cons_tidy _ _ (by simp) ?_
  exact nil_tidy

@[simp] theorem matchEndedData_tidy : Tidy MatchEndedData.codec := by
  refine via_tidy _ _ _ (fun _ => rfl) (flattened_tidy _ ?_)
  repeat refine cons_tidy _ _ (by simp) ?_
  exact nil_tidy

@[simp] theorem playerPresenceData_tidy : Tidy PlayerPresenceData.codec := by
  refine via_tidy _ _ _ (fun _ => rfl) (flattened_tidy _ ?_)
  repeat refine cons_tidy _ _ (by simp) ?_
  exact nil_tidy

@[simp] theorem replayCreatedData_tidy : Tidy ReplayCreatedData.codec := by
  refine via_tidy _ _ _ (fun _ => rfl) (flattened_tidy _ ?_)
  repeat refine cons_tidy _ _ (by simp) ?_
  exact nil_tidy

@[simp] theorem statfeedEventData_tidy : Tidy StatfeedEventData.codec := by
  refine via_tidy _ _ _ (fun _ => rfl) (flattened_tidy _ ?_)
  repeat refine cons_tidy _ _ (by simp) ?_
  exact nil_tidy

@[simp] theorem teamState_tidy : Tidy TeamState.codec := by
  refine via_tidy _ _ _ (fun _ => rfl) (flattened_tidy _ ?_)
  repeat refine cons_tidy _ _ (by simp) ?_
  exact nil_tidy

@[simp] theorem ballState_tidy : Tidy BallState.codec := by
  refine via_tidy _ _ _ (fun _ => rfl) (flattened_tidy _ ?_)
  repeat refine cons_tidy _ _ (by simp) ?_
  exact nil_tidy

@[simp] theorem updateStateGame_tidy : Tidy UpdateStateGame.codec := by
  refine via_tidy _ _ _ (fun _ => rfl) (flattened_tidy _ ?_)
  repeat refine cons_tidy _ _ (by simp) ?_
  exact nil_tidy

@[simp] theorem updateStateGame_default_canonical :
    (UpdateStateGame.codec.ser .default).Canonical :=
  updateStateGame_tidy (.object []) .default empty_object rfl

@[simp] theorem updateStatePlayer_tidy : Tidy UpdateStatePlayer.codec := by
  refine via_tidy _ _ _ (fun _ => rfl) (flattened_tidy _ ?_)
  repeat refine cons_tidy _ _ (by simp) ?_
  exact nil_tidy

@[simp] theorem updateStateData_tidy : Tidy UpdateStateData.codec := by
  refine via_tidy _ _ _ (fun _ => rfl) (flattened_tidy _ ?_)
  repeat refine cons_tidy _ _ (by simp) ?_
  exact nil_tidy

theorem typed_tidy (e : StatsEvent) (p : Payload) (h : typed e = some p) : Tidy p.codec := by
  cases e <;> cases h <;> simp

/-! ## Events written and read again -/

/-- The value that is written for an event. -/
def valueOf (event : StatsEvent) : Value :=
  match statsEventToValue event with
  | .ok v => v
  | .error _ => .null

theorem statsEventToValue_eq (event : StatsEvent) :
    statsEventToValue event = .ok (valueOf event) := by
  cases event <;> rfl

/-- The event is no unknown one whose payload is a text. -/
def Parsed (event : StatsEvent) : Prop := ∀ u, event = .unknown u → isText u.data = false

variable (read : Reader)

/-- Only a name that is not recognised gives an unknown event. -/
theorem unknown_from (env : EventEnvelope) (u : UnknownEvent)
    (h : parseEventEnvelope read env = .ok (.unknown u)) :
    u.event ∉ recognisedNames ∧ normalizeEventData read env.data = .ok u.data := by
  by_cases hn : env.event ∈ recognisedNames
  · exfalso
    unfold parseEventEnvelope at h
    cases hd : normalizeEventData read env.data with
    | error c => simp [hd, Bind.bind, Except.bind] at h
    | ok data =>
      simp only [hd, Bind.bind, Except.bind] at h
      split at h
      case h_26 hother => simp [recognisedNames] at hn; simp_all
      all_goals
        obtain ⟨a,_,ha⟩ := (map_fromValue_ok _ _ _ _).mp h
        cases ha
  · rw [show env = ⟨env.event,env.data⟩ from rfl, parse_unknown_envelope read _ _ hn] at h
    cases hd : normalizeEventData read env.data with
    | error c => simp [hd] at h
    | ok data =>
      simp only [hd] at h
      cases h
      exact ⟨hn,rfl⟩

/-- What is written for the event is canonical, and read as the event again. -/
def Settled (event : StatsEvent) : Prop :=
  ∃ name data, valueOf event = envelopeValue name data ∧ data.Canonical ∧
    parseEventEnvelope read ⟨name,data⟩ = .ok event

theorem parsed_settled (env : EventEnvelope) (event : StatsEvent) (hc : env.data.Canonical)
    (h : parseEventEnvelope read env = .ok event) (hp : Parsed event) : Settled read event := by
  cases ht : typed event with
  | some p =>
    obtain ⟨data,hn,hd⟩ := parseEventEnvelope_typed read env event p h ht
    have hdata := normalizeEventData_canonical read _ _ hc hn
    obtain ⟨m,hm⟩ := typed_object event p ht
    refine ⟨statsEventName event,p.codec.ser p.datum,?_,?_,?_⟩
    · exact Except.ok.inj
        ((statsEventToValue_eq event).symm.trans (statsEventToValue_typed event p ht))
    · exact typed_tidy event p ht data p.datum hdata hd
    · refine parseEventEnvelope_written read event p _ _ ht ?_
        (typed_roundTrips event p ht data p.datum hdata hd)
      rw [hm, normalizeEventData_object]
  | none =>
    obtain ⟨u,rfl⟩ := typed_none event ht
    obtain ⟨hn,hd⟩ := unknown_from read env u h
    refine ⟨u.event,u.data,rfl,normalizeEventData_canonical read _ _ hc hd,?_⟩
    rw [parse_unknown_envelope read _ _ hn, normalizeEventData_other read _ (hp u rfl)]

theorem text_parsed_settled (input : String) (event : StatsEvent)
    (h : parseStatsEvent read input = .ok event) (hp : Parsed event) : Settled read event := by
  unfold parseStatsEvent at h
  split at h
  · cases h
  · next env _ =>
    exact parsed_settled read ⟨env.event,env.data.collapse⟩ event
      (Value.collapse_canonical env.data) h hp

theorem value_parsed_settled (v : Json) (event : StatsEvent)
    (h : parseStatsEventValue read v.1 = .ok event) (hp : Parsed event) : Settled read event := by
  unfold parseStatsEventValue at h
  split at h
  · next env henv => exact parsed_settled read env event (envelope_canonical _ _ v.2 henv) h hp
  · cases h

/-! ## Lines -/

/-- The texts of objects stand on a line of their own. -/
structure Compact (print : Value → String) : Prop where
  feedless : ∀ m, '\n' ∉ (print (.object m)).toList
  trimmed : ∀ m, trim (print (.object m)).toList = (print (.object m)).toList
  visible : ∀ m, (print (.object m)).toList ≠ []

variable (print : Value → String)

/-- What `print_event` writes as JSON. -/
def lineOf (event : StatsEvent) : Text := (print (valueOf event)).toList

def printedText (events : List StatsEvent) : Text :=
  events.flatMap (fun event => lineOf print event++['\n'])

/-- The text of the event is read as the value it was printed for. -/
def Legible (event : StatsEvent) : Prop :=
  Parsed event ∧ read (print (valueOf event)) = .ok (valueOf event)

theorem valueOf_object (event : StatsEvent) : ∃ m, valueOf event = .object m := by
  cases event <;> exact ⟨_,rfl⟩

theorem line_reparsed (event : StatsEvent) (hs : Settled read event)
    (hr : read (print (valueOf event)) = .ok (valueOf event)) :
    parseStatsEvent read (String.ofList (lineOf print event)) = .ok event := by
  obtain ⟨name,data,hv,hc,hp⟩ := hs
  rw [lineOf, String.ofList_toList]
  exact parseStatsEvent_written read _ name data hc (hr.trans (congrArg Except.ok hv)) event hp

theorem lines_after (l s : Text) (hl : '\n' ∉ l) :
    lines (l++ '\n'::s) = stripCr l::lines s := by
  obtain ⟨p,ps,hp⟩ := List.exists_cons_of_ne_nil (List.splitOn_ne_nil '\n' s)
  rw [lines, lines, List.splitOn_append_cons_self_of_not_mem hl, hp, endLines]

/-- Lines that were printed with their feeds are the lines of the text. -/
theorem lines_printed (ls : List Text) (h : ∀ l ∈ ls, '\n' ∉ l) :
    lines (ls.flatMap (fun l => l++['\n'])) = ls.map stripCr := by
  induction ls with
  | nil => rfl
  | cons l ls ih =>
    have hls := ih (fun x hx => h x (List.mem_cons_of_mem l hx))
    rw [List.flatMap_cons, List.append_assoc, List.singleton_append,
      lines_after l _ (h l (List.mem_cons_self ..)), hls, List.map_cons]

/-- Lines without white space around them are not changed. -/
theorem stripCr_trimmed (l : Text) (h : trim l = l) : stripCr l = l := by
  rw [stripCr_eq_self_iff]
  intro hl
  have hw := trim_last l '\r' (by rw [h]; exact hl)
  exact absurd hw (by decide)

variable {print} in
theorem lines_printedText (hc : Compact print) (events : List StatsEvent) :
    lines (printedText print events) = events.map (lineOf print) := by
  have hobj (e : StatsEvent) : ∃ m, lineOf print e = (print (.object m)).toList := by
    obtain ⟨m,hm⟩ := valueOf_object e
    exact ⟨m,by rw [lineOf, hm]⟩
  have hflat : printedText print events =
      (events.map (lineOf print)).flatMap (fun l => l++['\n']) := by
    rw [printedText, List.flatMap_map]
  rw [hflat, lines_printed, List.map_map]
  · apply List.map_congr_left
    intro e _
    obtain ⟨m,hm⟩ := hobj e
    exact stripCr_trimmed _ (by rw [hm]; exact hc.trimmed m)
  · intro l hl
    obtain ⟨e,_,rfl⟩ := List.mem_map.mp hl
    obtain ⟨m,hm⟩ := hobj e
    rw [hm]
    exact hc.feedless m

/-! ## The reading end -/

/-- The lines of the input as the reading end takes them. -/
def piped (events : List StatsEvent) : List (Option Text) :=
  (lines (printedText print events)).map some

/-- The event is read from the line that is printed for it. -/
def Reread (event : StatsEvent) : Prop :=
  trim (lineOf print event) = lineOf print event ∧ lineOf print event ≠ [] ∧
    parseStatsEvent read (String.ofList (lineOf print event)) = .ok event

variable {read print} in
theorem legible_reread (hc : Compact print) (event : StatsEvent) (hs : Settled read event)
    (hl : Legible read print event) : Reread read print event := by
  obtain ⟨m,hm⟩ := valueOf_object event
  refine ⟨?_,?_,line_reparsed read print event hs hl.2⟩
  · rw [lineOf, hm]
    exact hc.trimmed m
  · rw [lineOf, hm]
    exact hc.visible m

theorem lineEvents_reread (strict : Bool) (events : List StatsEvent)
    (h : ∀ e ∈ events, Reread read print e) :
    lineEvents read strict (events.map (fun e => some (lineOf print e))) = events := by
  induction events with
  | nil => rfl
  | cons e es ih =>
    obtain ⟨ht,hv,hp⟩ := h e (List.mem_cons_self ..)
    rw [List.map_cons, lineEvents, ht, if_neg hv, hp]
    exact congrArg (e::·) (ih (fun x hx => h x (List.mem_cons_of_mem e hx)))

theorem stdinLoop_reread (cli : CliOptions) (filter : EventFilter) (strict : Bool)
    (events : List StatsEvent) (h : ∀ e ∈ events, Reread read print e)
    (lineNumber : ℕ) (printed : List StatsEvent) (emitted : ℕ) :
    (stdinLoop cli filter read strict lineNumber (events.map (fun e => some (lineOf print e)))
      printed emitted).1 ∈ [StdinExit.ended,.maxEvents] := by
  induction events generalizing lineNumber printed emitted with
  | nil => simp [stdinLoop]
  | cons e es ih =>
    obtain ⟨ht,hv,hp⟩ := h e (List.mem_cons_self ..)
    have hes (n : ℕ) (p : List StatsEvent) (c : ℕ) := ih (fun x hx => h x (by simp [hx])) n p c
    rw [List.map_cons, stdinLoop, ht]
    simp only [hv, if_false, hp, printEvent_ok]
    by_cases hm : filter.matches e = true
    · simp only [hm, if_true]
      by_cases hr : reached cli.maxEvents (emitted+1) = true
      · simp [hr]
      · simp only [hr, if_false, Bool.false_eq_true]
        exact hes _ _ _
    · simp only [hm, if_false, Bool.false_eq_true]
      exact hes _ _ _

theorem lineEvents_parsed (strict : Bool) (input : List (Option Text)) (event : StatsEvent)
    (h : event ∈ lineEvents read strict input) :
    ∃ text, parseStatsEvent read text = .ok event := by
  induction input with
  | nil => simp [lineEvents] at h
  | cons line input ih =>
    cases line with
    | none => simp [lineEvents] at h
    | some line =>
      rw [lineEvents] at h
      split at h
      · exact ih h
      · cases hp : parseStatsEvent read (String.ofList (trim line)) with
        | ok e =>
          rw [hp] at h
          rcases List.mem_cons.mp h with rfl | h
          · exact ⟨_,hp⟩
          · exact ih h
        | error e =>
          rw [hp] at h
          cases strict with
          | true => simp at h
          | false => exact ih h

/-! ## A printer that reads the output of a printer -/

/-- What the process prints that reads these lines with its own filter. -/
def printedBy (cli : CliOptions) (strict : Bool) (input : List (Option Text)) : List StatsEvent :=
  (runStdinMode cli (buildEventFilter cli) read strict input).2

theorem printedBy_eq (cli : CliOptions) (strict : Bool) (input : List (Option Text)) :
    printedBy read cli strict input = bounded cli.maxEvents 0
      ((lineEvents read strict input).filter (buildEventFilter cli).matches) := by
  rw [printedBy, runStdinMode, stdinLoop_printed _ _ _ _ _ _ _ _ (running_zero _)]
  rfl

theorem bounded_filtered (most : Option ℕ) (p : StatsEvent → Bool) (events : List StatsEvent) :
    bounded most 0 ((bounded most 0 (events.filter p)).filter p) =
      bounded most 0 (events.filter p) := by
  have hall : (bounded most 0 (events.filter p)).filter p = bounded most 0 (events.filter p) := by
    rw [List.filter_eq_self]
    intro e he
    exact (List.mem_filter.mp (mem_bounded _ _ _ _ he)).2
  rw [hall, bounded_bounded]

variable {read print} in
theorem printed_reread (hc : Compact print) (events : List StatsEvent)
    (hs : ∀ e ∈ events, Settled read e) (hl : ∀ e ∈ events, Legible read print e) :
    (∀ e ∈ events, Reread read print e) ∧
      piped print events = events.map (fun e => some (lineOf print e)) := by
  refine ⟨fun e he => legible_reread hc e (hs e he) (hl e he),?_⟩
  rw [piped, lines_printedText hc, List.map_map]
  rfl

/-- A second process prints what passes its own filter and maximum, without an
error; with the options of the first it prints the same again. -/
theorem piped_output (hc : Compact print) (first second : CliOptions) (firstStrict strict : Bool)
    (input : List (Option Text))
    (hl : ∀ e ∈ printedBy read first firstStrict input, Legible read print e) :
    printedBy read second strict (piped print (printedBy read first firstStrict input)) =
      bounded second.maxEvents 0
        ((printedBy read first firstStrict input).filter (buildEventFilter second).matches) ∧
    (runStdinMode second (buildEventFilter second) read strict
      (piped print (printedBy read first firstStrict input))).1 ∈ [StdinExit.ended,.maxEvents] ∧
    printedBy read first strict (piped print (printedBy read first firstStrict input)) =
      printedBy read first firstStrict input := by
  have hs : ∀ e ∈ printedBy read first firstStrict input, Settled read e := by
    intro e he
    have hmem := he
    rw [printedBy_eq] at hmem
    obtain ⟨text,ht⟩ := lineEvents_parsed read _ _ e
      (List.mem_filter.mp (mem_bounded _ _ _ _ hmem)).1
    exact text_parsed_settled read text e ht (hl e he).1
  obtain ⟨hre,hpipe⟩ := printed_reread hc _ hs hl
  have hread (cli : CliOptions) : printedBy read cli strict
      (piped print (printedBy read first firstStrict input)) = bounded cli.maxEvents 0
        ((printedBy read first firstStrict input).filter (buildEventFilter cli).matches) := by
    rw [printedBy_eq, hpipe, lineEvents_reread read print strict _ hre]
  refine ⟨hread second,?_,?_⟩
  · rw [hpipe]
    exact stdinLoop_reread read print second _ strict _ hre 0 [] 0
  · rw [hread first, printedBy_eq, bounded_filtered]

def plainEvent : StatsEvent := .unknown ⟨"X",plainEnvelope.data⟩

def plainLine : Text := "\x7b\"data\":0,\"event\":\"X\"\x7d".toList

def printPlain (_ : Value) : String := String.ofList plainLine

/-- A reader of this one text. -/
def readPlain : Reader := .ofValues fun text =>
  if text.toList = plainLine then .ok (valueOf plainEvent) else .error .malformed

theorem printPlain_text (v : Value) : (printPlain v).toList = plainLine := String.toList_ofList

theorem printPlain_compact : Compact printPlain where
  feedless m := by
    rw [printPlain_text]
    decide
  trimmed m := by
    rw [printPlain_text]
    rfl
  visible m := by
    rw [printPlain_text]
    decide

theorem plain_legible : Legible readPlain printPlain plainEvent := by
  refine ⟨?_,?_⟩
  · rintro u hu
    cases hu
    rfl
  · rw [readPlain, ofValues_value, printPlain_text, if_pos rfl]

/-- Two texts with a line between them that is no event. -/
def plainInput : List (Option Text) :=
  [some (' '::plainLine),some "stop".toList,some [],some plainLine]

theorem plain_printed : printedBy readPlain {} false plainInput = [plainEvent,plainEvent] := rfl

/-- The second process stops at one event. -/
theorem plain_piped :
    printedBy readPlain {maxEvents := some 1} true
        (piped printPlain (printedBy readPlain {} false plainInput)) = [plainEvent] ∧
      printedBy readPlain {} true (piped printPlain (printedBy readPlain {} false plainInput)) =
        [plainEvent,plainEvent] := by
  have hl : ∀ e ∈ printedBy readPlain {} false plainInput, Legible readPlain printPlain e := by
    rw [plain_printed]
    simp [plain_legible]
  obtain ⟨hsecond,_,hsame⟩ := piped_output readPlain printPlain printPlain_compact {}
    {maxEvents := some 1} false true plainInput hl
  exact ⟨hsecond,hsame⟩

/-! ## A printer that reads the output of a stream -/

theorem intercalate_feedless (sep : Text) (hs : '\n' ∉ sep) (ts : List Text)
    (h : ∀ t ∈ ts, '\n' ∉ t) : '\n' ∉ sep.intercalate ts := by
  induction ts with
  | nil => simp [List.intercalate]
  | cons t ts ih =>
    have hts := ih (fun x hx => h x (List.mem_cons_of_mem t hx))
    cases ts with
    | nil => simpa [List.intercalate] using h t (List.mem_cons_self ..)
    | cons t' ts =>
      rw [List.intercalate_cons_of_ne_nil (by simp)]
      simp only [List.mem_append, not_or]
      exact ⟨⟨h t (List.mem_cons_self ..),hs⟩,hts⟩

theorem signedText_feedless (i : ℤ) : '\n' ∉ signedText i := by
  have hd : '\n' ∉ Nat.toDigits 10 i.natAbs := by
    intro hm
    have h := List.all_eq_true.mp (toDigits_isDigit i.natAbs) _ hm
    exact absurd h (by decide)
  by_cases h : i < 0 <;> simp [signedText, signText, h, hd]

/-- The texts of the options stand on one line. -/
structure OneLine (cli : CliOptions) : Prop where
  name : ∀ t, cli.playerName = some t → '\n' ∉ t.toList
  primaryId : ∀ t, cli.playerPrimaryId = some t → '\n' ∉ t.toList
  guid : ∀ t, cli.matchGuid = some t → '\n' ∉ t.toList

theorem kindNames_feedless (kinds : List EventKind) :
    ∀ t ∈ (kinds.dedup.map eventKindName).mergeSort (fun a b => decide (a ≤ b)), '\n' ∉ t := by
  intro t ht
  obtain ⟨k,_,rfl⟩ := List.mem_map.mp ((List.mergeSort_perm _ _).subset ht)
  cases k <;> decide

theorem filterParts_feedless (cli : CliOptions) (h : OneLine cli) :
    ∀ t ∈ filterParts cli, '\n' ∉ t := by
  intro t ht
  simp only [filterParts, List.mem_append, Option.mem_toList, Option.map_eq_some_iff] at ht
  rcases ht with (((ht | ht) | ht) | ht) | ht
  · split at ht
    · cases ht
    · have hk := intercalate_feedless [','] (by decide) _ (kindNames_feedless cli.eventKinds)
      rw [List.mem_singleton.mp ht, List.mem_append, not_or]
      exact ⟨by decide,hk⟩
  · obtain ⟨x,hx,rfl⟩ := ht
    simpa using h.name x hx
  · obtain ⟨x,hx,rfl⟩ := ht
    simpa using h.primaryId x hx
  · obtain ⟨x,_,rfl⟩ := ht
    simpa using signedText_feedless x.val
  · obtain ⟨x,hx,rfl⟩ := ht
    simpa using h.guid x hx

theorem announcement_feedless (address : Text) (cli : CliOptions) (ha : '\n' ∉ address)
    (h : OneLine cli) : '\n' ∉ announcement address cli := by
  have hf : '\n' ∉ describeFilters cli := by
    by_cases hp : filterParts cli = []
    · rw [describeFilters, if_pos hp]
      decide
    · rw [describeFilters, if_neg hp]
      exact intercalate_feedless _ (by decide) _ (filterParts_feedless cli h)
  have ho : '\n' ∉ outputFormatName cli.outputFormat := by
    cases cli.outputFormat <;> decide
  have h1 : '\n' ∉ "Listening on ".toList := by decide
  have h2 : '\n' ∉ " (format=".toList := by decide
  have h3 : '\n' ∉ ", filters=".toList := by decide
  unfold announcement
  simp only [List.mem_append, not_or]
  exact ⟨⟨⟨⟨⟨⟨h1,ha⟩,h2⟩,ho⟩,h3⟩,hf⟩,by decide⟩

/-- What the process prints in `k` turns of a connection. -/
def streamedBy (D : Deserializer Json) (cli : CliOptions) (k : ℕ) (l : Link) : List StatsEvent :=
  (runStreamMode cli (buildEventFilter cli) (clientSource D read) k ⟨l,[],0⟩).2.printed

/-- The lines of a connection's output. -/
def pipedStream (address : Text) (cli : CliOptions) (events : List StatsEvent) :
    List (Option Text) :=
  (lines (announcement address cli++ '\n'::printedText print events)).map some

section Connection

variable (D : Deserializer Json)

theorem tryParse_parsed (buffer : Bytes) (event : StatsEvent)
    (h : (tryParseEventFromBuffer D read buffer).1 = .ok (some event)) :
    ∃ v : Json, parseStatsEventValue read v.1 = .ok event := by
  simp only [tryParseEventFromBuffer] at h
  split at h
  · cases h
  · split at h
    · next v _ _ =>
      refine ⟨v,?_⟩
      cases hv : parseStatsEventValue read v.1 with
      | error e => simp [hv] at h
      | ok e => simpa [hv] using h
    all_goals cases h

theorem nextEvent_parsed (reader : List Read) (buffer : Bytes) (event : StatsEvent)
    (h : (nextEvent D read buffer reader).1 = .ready (.ok (some event))) :
    ∃ v : Json, parseStatsEventValue read v.1 = .ok event := by
  induction reader generalizing buffer with
  | nil =>
    rw [nextEvent] at h
    split at h
    · exact tryParse_parsed read D _ event (Poll.ready.inj h)
    · next hr => exact tryParse_parsed read D buffer event (by rw [hr]; exact Poll.ready.inj h)
  | cons r reader ih =>
    rw [nextEvent] at h
    split at h
    · cases r with
      | chunk b bs => exact ih _ h
      | dropped => cases h
      | failed => cases h
    · next hr => exact tryParse_parsed read D buffer event (by rw [hr]; exact Poll.ready.inj h)

theorem drawn_parsed (k : ℕ) (l : Link) (event : StatsEvent)
    (h : event ∈ drawn (clientSource D read) k l) :
    ∃ v : Json, parseStatsEventValue read v.1 = .ok event := by
  induction k generalizing l with
  | zero => simp [drawn] at h
  | succ k ih =>
    have hnext (e : StatsEvent)
        (he : ((clientSource D read).nextEvent l).1 = .ready (.ok (some e))) :
        ∃ v : Json, parseStatsEventValue read v.1 = .ok e := nextEvent_parsed read D _ _ e he
    rw [drawn] at h
    split at h
    · cases h
    · next e s hs =>
      rcases List.mem_cons.mp h with rfl | h
      · exact hnext _ (by rw [hs])
      · exact ih s h
    all_goals
      split at h
      · exact ih _ h
      · cases h

theorem stripCr_headed (s : Text) : ∃ t, stripCr ('L'::s) = 'L'::t := by
  cases s with
  | nil => exact ⟨[],rfl⟩
  | cons c s =>
    unfold stripCr
    split
    · exact ⟨(c::s).dropLast,by simp⟩
    · exact ⟨c::s,rfl⟩

theorem trim_headed (s : Text) : ∃ t, trim ('L'::s) = 'L'::t := by
  have hs : trimStart ('L'::s) = 'L'::s := by simp [trimStart, isWhitespace]
  have hne : trim ('L'::s) ≠ [] := by
    rw [trim, hs, trimEnd, ne_eq, List.rdropWhile_eq_nil_iff]
    intro h
    exact absurd (h 'L' (List.mem_cons_self ..)) (by decide)
  obtain ⟨c,t,ht⟩ := List.exists_cons_of_ne_nil hne
  have hpre : trim ('L'::s) <+: 'L'::s := by
    rw [trim, hs]
    exact List.rdropWhile_prefix _ _
  rw [ht] at hpre
  have hc : c = 'L' := (List.cons_prefix_cons.mp hpre).1
  exact ⟨t,by rw [ht, hc]⟩

/-- Nothing is read from a text that starts with an L, whatever is passed over. -/
def Refuses : Prop :=
  ∀ s : Text, ∃ category, known (read.scan (String.ofList ('L'::s))) = .error category

theorem headed_refused (h : Refuses read) (s : Text) :
    ∃ e, parseStatsEvent read (String.ofList (trim ('L'::s))) = .error e := by
  obtain ⟨t,ht⟩ := trim_headed s
  obtain ⟨c,hc⟩ := h t
  rw [ht]
  cases hp : parseStatsEvent read (String.ofList ('L'::t)) with
  | error e => exact ⟨e,rfl⟩
  | ok event =>
    obtain ⟨tree,_,hk,_⟩ := (parseStatsEvent_iff read _ event).mp hp
    rw [hc] at hk
    cases hk

theorem stdinLoop_headed (h : Refuses read) (cli : CliOptions) (filter : EventFilter) (s : Text)
    (lineNumber : ℕ) (rest : List (Option Text)) (printed : List StatsEvent) (emitted : ℕ) :
    ∃ e, stdinLoop cli filter read true lineNumber (some ('L'::s)::rest) printed emitted =
      (.parseError (lineNumber+1) e,printed) := by
  obtain ⟨e,he⟩ := headed_refused read h s
  obtain ⟨t,ht⟩ := trim_headed s
  have hv : trim ('L'::s) ≠ [] := by simp [ht]
  exact ⟨e,by rw [stdinLoop]; simp only [hv, if_false, he, if_true]⟩

theorem lineEvents_headed (h : Refuses read) (s : Text) (rest : List (Option Text)) :
    lineEvents read false (some ('L'::s)::rest) = lineEvents read false rest := by
  obtain ⟨e,he⟩ := headed_refused read h s
  obtain ⟨t,ht⟩ := trim_headed s
  have hv : trim ('L'::s) ≠ [] := by simp [ht]
  rw [lineEvents, if_neg hv, he]
  rfl

theorem announcement_headed (address : Text) (cli : CliOptions) :
    ∃ s, announcement address cli = 'L'::s := ⟨_,rfl⟩

theorem streamedBy_eq (cli : CliOptions) (k : ℕ) (l : Link) :
    streamedBy read D cli k l = bounded cli.maxEvents 0
      ((drawn (clientSource D read) k l).filter (buildEventFilter cli).matches) := by
  rw [streamedBy, runStreamMode_printed _ _ _ _ _ (running_zero _)]
  rfl

/-- The reader that skips what it cannot read prints the events of the
connection; the strict reader stops at the line before them. -/
theorem piped_stream_output (hc : Compact print) (hL : Refuses read) (address : Text)
    (first second : CliOptions) (k : ℕ) (l : Link) (ha : '\n' ∉ address) (ho : OneLine first)
    (hl : ∀ e ∈ streamedBy read D first k l, Legible read print e) :
    printedBy read second false (pipedStream print address first (streamedBy read D first k l)) =
      bounded second.maxEvents 0
        ((streamedBy read D first k l).filter (buildEventFilter second).matches) ∧
    printedBy read first false (pipedStream print address first (streamedBy read D first k l)) =
      streamedBy read D first k l ∧
    ∃ e, runStdinMode second (buildEventFilter second) read true
      (pipedStream print address first (streamedBy read D first k l)) = (.parseError 1 e,[]) := by
  have hs : ∀ e ∈ streamedBy read D first k l, Settled read e := by
    intro e he
    have hmem := he
    rw [streamedBy_eq] at hmem
    obtain ⟨v,hv⟩ := drawn_parsed read D k l e (List.mem_filter.mp (mem_bounded _ _ _ _ hmem)).1
    exact value_parsed_settled read v e hv (hl e he).1
  obtain ⟨hre,hpipe⟩ := printed_reread hc _ hs hl
  obtain ⟨s,hs⟩ := announcement_headed address first
  have hhead : ∃ t, stripCr (announcement address first) = 'L'::t := by
    rw [hs]
    exact stripCr_headed s
  obtain ⟨t,ht⟩ := hhead
  have hlines : pipedStream print address first (streamedBy read D first k l) =
      some ('L'::t)::piped print (streamedBy read D first k l) := by
    rw [pipedStream, lines_after _ _ (announcement_feedless address first ha ho), ht]
    rfl
  have hread (cli : CliOptions) : printedBy read cli false
      (pipedStream print address first (streamedBy read D first k l)) = bounded cli.maxEvents 0
        ((streamedBy read D first k l).filter (buildEventFilter cli).matches) := by
    rw [printedBy_eq, hlines, lineEvents_headed read hL, hpipe,
      lineEvents_reread read print false _ hre]
  refine ⟨hread second,?_,?_⟩
  · rw [hread first, streamedBy_eq, bounded_filtered]
  · rw [hlines]
    exact stdinLoop_headed read hL second _ t 0 _ [] 0

end Connection

theorem readPlain_refuses : Refuses readPlain := by
  intro s
  have hne : (String.ofList ('L'::s)).toList ≠ plainLine := by
    rw [String.toList_ofList]
    intro h
    exact absurd (List.cons.inj h).1 (by decide)
  exact ⟨.malformed,by simp only [readPlain, Reader.ofValues, if_neg hne]; rfl⟩

/-- A connection on which the event comes once, and none after it. -/
def plainLink : Link := ⟨.connect [.chunk 123 plainText.tail],[]⟩

def localAddress : Text := "127.0.0.1:49123".toList

theorem plain_stream_piped : streamedBy readPlain objects {} 1 plainLink = [plainEvent] ∧
    printedBy readPlain {} false (pipedStream printPlain localAddress {} [plainEvent]) =
      [plainEvent] ∧
    ∃ e, runStdinMode {} (buildEventFilter {}) readPlain true
      (pipedStream printPlain localAddress {} [plainEvent]) = (.parseError 1 e,[]) := by
  have hone : OneLine {} := ⟨by simp,by simp,by simp⟩
  have hl : ∀ e ∈ streamedBy readPlain objects {} 1 plainLink, Legible readPlain printPlain e := by
    intro e he
    have h : e ∈ [plainEvent] := he
    rw [List.mem_singleton.mp h]
    exact plain_legible
  obtain ⟨_,hsame,hstrict⟩ := piped_stream_output readPlain printPlain objects printPlain_compact
    readPlain_refuses localAddress {} {} 1 plainLink (by decide) hone hl
  exact ⟨rfl,hsame,hstrict⟩

end RlStatsApi.EventPipe
