import Mathlib.Data.List.DropRight
import RlStatsApi.BroadcastArguments
import RlStatsApi.KindTokens
import RlStatsApi.MaxEvents

/-!
# From the command line of the printer to its output

Of the options that name one thing the last one counts. The kinds of events
add up over the line, and `all` drops those before it. What is printed are the
first events of the input that are as the line asks.
-/

set_option autoImplicit false

namespace RlStatsApi.EventsArguments
open RlStatsApi.TextLines RlStatsApi.DecimalText RlStatsApi.JsonValue RlStatsApi.Error
open RlStatsApi.EventParsing RlStatsApi.EventFilters RlStatsApi.EventValues RlStatsApi.StreamClient
open RlStatsApi.RelayLoop RlStatsApi.CountedOutput RlStatsApi.RlEvents RlStatsApi.KindTokens
open RlStatsApi.OptionLoop RlStatsApi.TextReader
open RlStatsApi.BroadcastArguments (ArgumentError readU16 readU64 integer integer_ok integer_set)

inductive InputMode where
  | stream
  | stdin (strict : Bool)

/-- The options of the connection and of the input beside those of the two modes. -/
structure CommandLine where
  iniPath : Option String
  host : Option String
  port : Option U16
  inputMode : InputMode
  cli : CliOptions

def CommandLine.default : CommandLine := ⟨none,none,none,.stream,{}⟩

inductive Answer where
  | listEvents
  | listFormats
  | help

def outputFormat : String → Option OutputFormat
  | "pretty" => some .pretty
  | "compact" => some .compact
  | "json" => some .json
  | _ => none

def lowered (value : String) : String := String.ofList (value.toList.map Char.toLower)

def parseOutputFormat (value : String) : Except ArgumentError OutputFormat :=
  match outputFormat (lowered value) with
  | some format => .ok format
  | none => .error (.message ("unknown format '"++lowered value++
      "'. Use --list-formats to see valid values."))

def setKinds (value : String) (line : CommandLine) : Except ArgumentError CommandLine :=
  match parseEventFilterValue value line.cli.eventKinds with
  | .ok kinds => .ok {line with cli := {line.cli with eventKinds := kinds}}
  | .error text => .error (.message text)

def entry : String → Entry CommandLine ArgumentError Answer
  | "--ini" => .valued (.message "--ini requires a file path")
    (fun value line => .ok {line with iniPath := some value})
  | "--host" => .valued (.message "--host requires a value")
    (fun value line => .ok {line with host := some value})
  | "--port" => .valued (.message "--port requires a value")
    (fun value line => (integer readU16 value).map (fun port => {line with port := some port}))
  | "--event" => .valued (.message "--event requires a value") setKinds
  | "--player" => .valued (.message "--player requires a value")
    (fun value line => .ok {line with cli := {line.cli with playerName := some value}})
  | "--player-id" => .valued (.message "--player-id requires a value")
    (fun value line => .ok {line with cli := {line.cli with playerPrimaryId := some value}})
  | "--team" => .valued (.message "--team requires a value")
    (fun value line => (integer parseI64 value).map (fun team =>
      {line with cli := {line.cli with teamNum := some team}}))
  | "--match" => .valued (.message "--match requires a value")
    (fun value line => .ok {line with cli := {line.cli with matchGuid := some value}})
  | "--format" => .valued (.message "--format requires a value")
    (fun value line => (parseOutputFormat value).map (fun format =>
      {line with cli := {line.cli with outputFormat := format}}))
  | "--stdin" => .flag (fun line => {line with inputMode := .stdin false})
  | "--strict-stdin" => .flag (fun line => {line with inputMode := .stdin true})
  | "--max-events" => .valued (.message "--max-events requires a value")
    (fun value line => (integer readU64 value).map (fun max =>
      {line with cli := {line.cli with maxEvents := some max.val}}))
  | "--list-events" => .leave .listEvents
  | "--list-formats" => .leave .listFormats
  | "-h" | "--help" => .leave .help
  | other => .refuse (.message ("Unknown argument: "++other))

def parseArgs (args : List String) : Except ArgumentError (CommandLine ⊕ Answer) :=
  parse entry args .default

/-! ## What a group gives -/

/-- The parts of a list of kinds, if each of them is known. -/
def knownParts (value : String) : Option (List Text) :=
  if ∀ p ∈ value.toList.splitOn ',', token p ≠ .unknown then some (value.toList.splitOn ',')
  else none

def iniPath : List String → Option String := valueOf ["--ini"] some
def host : List String → Option String := valueOf ["--host"] some
def port : List String → Option U16 := valueOf ["--port"] readU16
def eventParts : List String → Option (List Text) := valueOf ["--event"] knownParts
def playerName : List String → Option String := valueOf ["--player"] some
def playerPrimaryId : List String → Option String := valueOf ["--player-id"] some
def teamNum : List String → Option I64 := valueOf ["--team"] parseI64
def matchGuid : List String → Option String := valueOf ["--match"] some
def format : List String → Option OutputFormat :=
  valueOf ["--format"] (fun value => outputFormat (lowered value))
def inputMode (group : List String) : Option InputMode :=
  (flagOf ["--stdin"] (.stdin false) group).or (flagOf ["--strict-stdin"] (.stdin true) group)
def maxEvents : List String → Option ℕ :=
  valueOf ["--max-events"] (fun value => (readU64 value).map Fin.val)

def applied (group : List String) (line : CommandLine) : CommandLine where
  iniPath := (iniPath group).or line.iniPath
  host := (host group).or line.host
  port := (port group).or line.port
  inputMode := (inputMode group).getD line.inputMode
  cli := {
    eventKinds := ((eventParts group).getD []).foldl (advance (fun _ => [])) line.cli.eventKinds
    playerName := (playerName group).or line.cli.playerName
    playerPrimaryId := (playerPrimaryId group).or line.cli.playerPrimaryId
    teamNum := (teamNum group).or line.cli.teamNum
    matchGuid := (matchGuid group).or line.cli.matchGuid
    outputFormat := (format group).getD line.cli.outputFormat
    maxEvents := (maxEvents group).or line.cli.maxEvents}

/-- It gives one of the fields a value. -/
def wellFormed (group : List String) : Prop :=
  (iniPath group).isSome ∨ (host group).isSome ∨ (port group).isSome ∨
  (eventParts group).isSome ∨ (playerName group).isSome ∨ (playerPrimaryId group).isSome ∨
  (teamNum group).isSome ∨ (matchGuid group).isSome ∨ (format group).isSome ∨
  (inputMode group).isSome ∨ (maxEvents group).isSome

/-- A list of kinds is read when all its parts are known, whatever came before. -/
theorem setKinds_eq (value : String) (line : CommandLine) :
    (∃ ps, knownParts value = some ps ∧ setKinds value line =
      .ok {line with cli := {line.cli with
        eventKinds := ps.foldl (advance (fun _ => [])) line.cli.eventKinds}}) ∨
    (knownParts value = none ∧ ∃ e, setKinds value line = .error e) := by
  rcases foldlM_readPart (fun _ => []) (fun token =>
      "unknown event filter '"++token++"'. Use --list-events to see valid values.")
      (value.toList.splitOn ',') line.cli.eventKinds with ⟨⟨p,hp,hu⟩,e,he⟩ | ⟨hk,he⟩
  · refine .inr ⟨if_neg fun h => h p hp hu,.message e,?_⟩
    have hv : parseEventFilterValue value line.cli.eventKinds = .error e := he
    rw [setKinds, hv]
  · refine .inl ⟨_,if_pos hk,?_⟩
    have hv : parseEventFilterValue value line.cli.eventKinds = .ok _ := he
    rw [setKinds, hv]

theorem setKinds_some (value : String) (line line' : CommandLine)
    (h : setKinds value line = .ok line') : ∃ ps, knownParts value = some ps ∧
      {line with cli := {line.cli with
        eventKinds := ps.foldl (advance (fun _ => [])) line.cli.eventKinds}} = line' := by
  rcases setKinds_eq value line with ⟨ps,hps,he⟩ | ⟨_,e,he⟩
  · rw [he] at h
    cases h
    exact ⟨ps,hps,rfl⟩
  · rw [he] at h
    cases h

theorem format_set (value : String) (set : OutputFormat → CommandLine) (line' : CommandLine)
    (h : (parseOutputFormat value).map set = .ok line') :
    ∃ f, outputFormat (lowered value) = some f ∧ set f = line' := by
  unfold parseOutputFormat at h
  cases hf : outputFormat (lowered value) with
  | none =>
    rw [hf] at h
    cases h
  | some f =>
    rw [hf] at h
    cases h
    exact ⟨f,rfl,rfl⟩

theorem format_ok (value : String) (set : OutputFormat → CommandLine) (f : OutputFormat)
    (h : outputFormat (lowered value) = some f) : (parseOutputFormat value).map set = .ok (set f) := by
  rw [parseOutputFormat, h]
  rfl

/-- A field is left alone by the groups of the other names. -/
theorem group_applied (group : List String) (set : CommandLine → Except ArgumentError CommandLine)
    (line line' : CommandLine) (hg : Group entry group set) (hs : set line = .ok line') :
    wellFormed group ∧ line' = applied group line := by
  cases hg with
  | flag arg set h =>
    cases hs
    unfold entry at h
    split at h <;> cases h <;>
      exact ⟨by simp [wellFormed, inputMode, flagOf],by
        simp [applied, iniPath, host, port, eventParts, playerName, playerPrimaryId, teamNum,
          matchGuid, format, inputMode, maxEvents, valueOf, flagOf]⟩
  | valued arg value missing set h =>
    unfold entry at h
    split at h <;> cases h
    all_goals first
      | cases hs
        exact ⟨by simp [wellFormed, iniPath, host, playerName, playerPrimaryId, matchGuid, valueOf],
          by simp [applied, iniPath, host, port, eventParts, playerName, playerPrimaryId, teamNum,
            matchGuid, format, inputMode, maxEvents, valueOf, flagOf]⟩
      | obtain ⟨n,hn,rfl⟩ := integer_set _ _ _ _ hs
        exact ⟨by simp [wellFormed, port, teamNum, maxEvents, valueOf, hn],by
          simp [applied, iniPath, host, port, eventParts, playerName, playerPrimaryId, teamNum,
            matchGuid, format, inputMode, maxEvents, valueOf, flagOf, hn]⟩
      | obtain ⟨ps,hps,rfl⟩ := setKinds_some _ _ _ hs
        exact ⟨by simp [wellFormed, eventParts, valueOf, hps],by
          simp [applied, iniPath, host, port, eventParts, playerName, playerPrimaryId, teamNum,
            matchGuid, format, inputMode, maxEvents, valueOf, flagOf, hps]⟩
      | obtain ⟨f,hf,rfl⟩ := format_set _ _ _ hs
        exact ⟨by simp [wellFormed, format, valueOf, hf],by
          simp [applied, iniPath, host, port, eventParts, playerName, playerPrimaryId, teamNum,
            matchGuid, format, inputMode, maxEvents, valueOf, flagOf, hf]⟩

theorem group_complete (group : List String) (h : wellFormed group) :
    ∃ set, Group entry group set ∧ ∀ line, set line = .ok (applied group line) := by
  have hset : ∃ set, Group entry group set ∧ ∀ line, ∃ line', set line = .ok line' := by
    have htext : ∀ name ∈ ["--ini","--host","--player","--player-id","--match"],
        ∃ missing set, entry name = .valued missing set ∧ ∀ (value t : String) (s : CommandLine),
          some value = some t → ∃ s', set value s = .ok s' := by
      intro name hn
      fin_cases hn
      all_goals exact ⟨_,_,rfl,fun _ _ _ _ => ⟨_,rfl⟩⟩
    rcases h with h | h | h | h | h | h | h | h | h | h | h
    · exact valued_complete entry ["--ini"] some (fun name hn => htext name (by simp_all)) group h
    · exact valued_complete entry ["--host"] some (fun name hn => htext name (by simp_all)) group h
    · exact valued_complete entry _ _ (fun name hn => by
        fin_cases hn
        exact ⟨_,_,rfl,fun _ _ _ h => integer_ok _ _ _ _ h⟩) group h
    · exact valued_complete entry _ _ (fun name hn => by
        fin_cases hn
        refine ⟨_,_,rfl,fun value ps line hps => ?_⟩
        rcases setKinds_eq value line with ⟨_,_,he⟩ | ⟨hnone,_⟩
        · exact ⟨_,he⟩
        · rw [hnone] at hps
          cases hps) group h
    · exact valued_complete entry ["--player"] some (fun name hn => htext name (by simp_all)) group h
    · exact valued_complete entry ["--player-id"] some (fun name hn => htext name (by simp_all))
        group h
    · exact valued_complete entry _ _ (fun name hn => by
        fin_cases hn
        exact ⟨_,_,rfl,fun _ _ _ h => integer_ok _ _ _ _ h⟩) group h
    · exact valued_complete entry ["--match"] some (fun name hn => htext name (by simp_all)) group h
    · exact valued_complete entry _ _ (fun name hn => by
        fin_cases hn
        exact ⟨_,_,rfl,fun value f line hf => ⟨_,format_ok value _ f hf⟩⟩) group h
    · rw [inputMode, Option.isSome_or, Bool.or_eq_true] at h
      rcases h with h | h
      · exact flag_complete entry _ _ (fun name hn => by fin_cases hn; exact ⟨_,rfl⟩) group h
      · exact flag_complete entry _ _ (fun name hn => by fin_cases hn; exact ⟨_,rfl⟩) group h
    · exact valued_complete entry _ _ (fun name hn => by
        fin_cases hn
        refine ⟨_,_,rfl,fun value t line ht => ?_⟩
        obtain ⟨max,hmax,rfl⟩ := Option.map_eq_some_iff.mp ht
        exact integer_ok _ _ value max hmax) group h
  obtain ⟨set,hg,hok⟩ := hset
  refine ⟨set,hg,fun line => ?_⟩
  obtain ⟨line',hline⟩ := hok line
  rw [hline, (group_applied group set line line' hg hline).2]

theorem options_described : Described entry wellFormed applied :=
  ⟨group_applied,group_complete⟩

/-! ## Lines -/

def allParts (groups : List (List String)) : List Text :=
  groups.flatMap (fun group => (eventParts group).getD [])

/-- The last value that the groups give a field, or else its default, and the
kinds after all the parts. -/
def settled (groups : List (List String)) : CommandLine where
  iniPath := last iniPath groups
  host := last host groups
  port := last port groups
  inputMode := (last inputMode groups).getD .stream
  cli := {
    eventKinds := cleared (allParts groups)
    playerName := last playerName groups
    playerPrimaryId := last playerPrimaryId groups
    teamNum := last teamNum groups
    matchGuid := last matchGuid groups
    outputFormat := (last format groups).getD .pretty
    maxEvents := last maxEvents groups}

theorem line_ext (a b : CommandLine) (hini : a.iniPath = b.iniPath) (hhost : a.host = b.host)
    (hport : a.port = b.port) (hmode : a.inputMode = b.inputMode)
    (hkinds : a.cli.eventKinds = b.cli.eventKinds) (hname : a.cli.playerName = b.cli.playerName)
    (hid : a.cli.playerPrimaryId = b.cli.playerPrimaryId) (hteam : a.cli.teamNum = b.cli.teamNum)
    (hguid : a.cli.matchGuid = b.cli.matchGuid)
    (hformat : a.cli.outputFormat = b.cli.outputFormat)
    (hmax : a.cli.maxEvents = b.cli.maxEvents) : a = b := by
  obtain ⟨_,_,_,_,⟨_,_,_,_,_,_,_⟩⟩ := a
  obtain ⟨_,_,_,_,⟨_,_,_,_,_,_,_⟩⟩ := b
  simp_all

theorem applyAll_settled (groups : List (List String)) :
    applyAll applied groups .default = settled groups := by
  apply line_ext
  · exact (applyAll_last applied CommandLine.iniPath iniPath (fun _ _ => rfl) groups _).trans
      Option.or_none
  · exact (applyAll_last applied CommandLine.host host (fun _ _ => rfl) groups _).trans
      Option.or_none
  · exact (applyAll_last applied CommandLine.port port (fun _ _ => rfl) groups _).trans
      Option.or_none
  · exact applyAll_getD applied CommandLine.inputMode inputMode (fun _ _ => rfl) groups _
  · exact applyAll_moved applied (fun line => line.cli.eventKinds) (advance (fun _ => [])) _
      (fun _ _ => rfl) groups _
  · exact (applyAll_last applied (fun line => line.cli.playerName) playerName (fun _ _ => rfl)
      groups _).trans Option.or_none
  · exact (applyAll_last applied (fun line => line.cli.playerPrimaryId) playerPrimaryId
      (fun _ _ => rfl) groups _).trans Option.or_none
  · exact (applyAll_last applied (fun line => line.cli.teamNum) teamNum (fun _ _ => rfl)
      groups _).trans Option.or_none
  · exact (applyAll_last applied (fun line => line.cli.matchGuid) matchGuid (fun _ _ => rfl)
      groups _).trans Option.or_none
  · exact applyAll_getD applied (fun line => line.cli.outputFormat) format (fun _ _ => rfl) groups _
  · exact (applyAll_last applied (fun line => line.cli.maxEvents) maxEvents (fun _ _ => rfl)
      groups _).trans Option.or_none

theorem run_iff (args : List String) (line : CommandLine) :
    parseArgs args = .ok (.inl line) ↔ ∃ groups : List (List String), args = groups.flatten ∧
      (∀ group ∈ groups, wellFormed group) ∧ line = settled groups := by
  rw [parseArgs, parse_settled_iff options_described]
  simp only [applyAll_settled]

def answerNames : Answer → List String
  | .listEvents => ["--list-events"]
  | .listFormats => ["--list-formats"]
  | .help => ["-h","--help"]

theorem answer_iff (args : List String) (answer : Answer) :
    parseArgs args = .ok (.inr answer) ↔ ∃ (groups : List (List String)) (name : String)
      (rest : List String), args = groups.flatten++name::rest ∧
      (∀ group ∈ groups, wellFormed group) ∧ name ∈ answerNames answer := by
  have hname : ∀ name, entry name = .leave answer ↔ name ∈ answerNames answer := by
    intro name
    constructor
    · intro h
      unfold entry at h
      split at h <;> cases h <;> simp [answerNames]
    · intro h
      cases answer <;> fin_cases h <;> rfl
  rw [parseArgs, parse_left_iff options_described]
  simp only [hname]

/-! ## What is printed -/

/-- The kinds that are named after the last `all`. -/
def askedKinds (ps : List Text) : List EventKind :=
  (ps.rtakeWhile (fun p => decide (token p ≠ .all))).filterMap (fun p => tokenKind (token p))

theorem cleared_asked (ps : List Text) : cleared ps = askedKinds ps := by
  induction ps using List.reverseRecOn with
  | nil => rfl
  | append_singleton ps p ih =>
    have hstep : cleared (ps++[p]) = advance (fun _ => []) (cleared ps) p := by
      rw [cleared, List.foldl_append]
      rfl
    rw [hstep, askedKinds, List.rtakeWhile_concat]
    by_cases hp : token p = .all
    · rw [if_neg (by simpa using hp), advance, hp]
      rfl
    · rw [if_pos (by simpa using hp), List.filterMap_append, ← askedKinds, ← ih, advance]
      cases ht : token p <;> simp_all [tokenKind]

/-- An event as the groups ask for it. -/
def asked (groups : List (List String)) (event : StatsEvent) : Bool :=
  accepts (askedKinds (allParts groups)) event &&
  (last matchGuid groups).all (fun guid => (eventMatchGuid event).any (fun g => g = guid)) &&
  (last teamNum groups).all (eventHasTeam event) &&
  (last playerName groups).all (eventHasPlayerName event) &&
  (last playerPrimaryId groups).all (eventHasPlayerPrimaryId event)

theorem buildEventFilter_matches (cli : CliOptions) (event : StatsEvent) :
    (buildEventFilter cli).matches event = (accepts cli.eventKinds event &&
      cli.matchGuid.all (fun guid => (eventMatchGuid event).any (fun g => g = guid)) &&
      cli.teamNum.all (eventHasTeam event) && cli.playerName.all (eventHasPlayerName event) &&
      cli.playerPrimaryId.all (eventHasPlayerPrimaryId event)) := by
  obtain ⟨kinds,name,id,team,guid,_,_⟩ := cli
  rw [← matches_kinds kinds event]
  cases kinds <;> cases name <;> cases id <;> cases team <;> cases guid <;>
    simp [buildEventFilter, EventFilter.matches, EventFilter.new, EventFilter.includeKinds,
      EventFilter.withPlayerName, EventFilter.withPlayerPrimaryId, EventFilter.withTeamNum,
      EventFilter.withMatchGuid]

theorem settled_matches (groups : List (List String)) (event : StatsEvent) :
    (buildEventFilter (settled groups).cli).matches event = asked groups event := by
  rw [buildEventFilter_matches, asked, ← cleared_asked]
  rfl

section Run

variable (read : Reader) {σ : Type} (S : Source σ)

/-- The events of the input of a mode. -/
def inputEvents (mode : InputMode) (lines : List (Option Text)) (k : ℕ) (s : σ) :
    List StatsEvent :=
  match mode with
  | .stream => drawn S k s
  | .stdin strict => lineEvents read strict lines

/-- What a run prints, from a connection in its first `k` turns. -/
def runPrints (line : CommandLine) (lines : List (Option Text)) (k : ℕ) (s : σ) :
    List StatsEvent :=
  match line.inputMode with
  | .stream => (runStreamMode line.cli (buildEventFilter line.cli) S k ⟨s,[],0⟩).2.printed
  | .stdin strict => (runStdinMode line.cli (buildEventFilter line.cli) read strict lines).2

theorem runPrints_eq (line : CommandLine) (lines : List (Option Text)) (k : ℕ) (s : σ) :
    runPrints read S line lines k s = bounded line.cli.maxEvents 0
      ((inputEvents read S line.inputMode lines k s).filter (buildEventFilter line.cli).matches) := by
  unfold runPrints inputEvents
  cases line.inputMode with
  | stream => exact MaxEvents.streamMessages_eq S line.cli k s
  | stdin strict => exact MaxEvents.stdinMessages_eq read line.cli strict lines

theorem settled_prints (groups : List (List String)) (lines : List (Option Text)) (k : ℕ) (s : σ) :
    runPrints read S (settled groups) lines k s = bounded (last maxEvents groups) 0
      ((inputEvents read S ((last inputMode groups).getD .stream) lines k s).filter
        (asked groups)) := by
  rw [runPrints_eq, funext (settled_matches groups)]
  rfl

/-- A line is accepted when it is made of groups that each give a field a
value, unless an argument among them asks for a list or for help. The run then
prints the first events of its input that are as the last option of each name
and the kinds after the last `all` ask. -/
theorem line_prints (args : List String) :
    (∀ line, parseArgs args = .ok (.inl line) ↔ ∃ groups : List (List String),
      args = groups.flatten ∧ (∀ group ∈ groups, wellFormed group) ∧ line = settled groups) ∧
    (∀ answer, parseArgs args = .ok (.inr answer) ↔ ∃ (groups : List (List String)) (name : String)
      (rest : List String), args = groups.flatten++name::rest ∧
      (∀ group ∈ groups, wellFormed group) ∧ name ∈ answerNames answer) ∧
    ∀ (groups : List (List String)) (lines : List (Option Text)) (k : ℕ) (s : σ),
      runPrints read S (settled groups) lines k s = bounded (last maxEvents groups) 0
        ((inputEvents read S ((last inputMode groups).getD .stream) lines k s).filter
          (asked groups)) :=
  ⟨run_iff args,answer_iff args,settled_prints read S⟩

end Run

end RlStatsApi.EventsArguments
