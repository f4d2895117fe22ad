import RlStatsApi.BroadcastArguments
import RlStatsApi.MockServer

/-!
# The command line of the mock broadcaster

The names of the events add up over the line, and the two options for the loop
undo each other. The options that some line gives are those with an interval,
and with names that no comma or blank at an end could have come with.
-/

set_option autoImplicit false

namespace RlStatsApi.MockArguments
open RlStatsApi.TextLines RlStatsApi.DecimalText RlStatsApi.JsonValue RlStatsApi.Error
open RlStatsApi.OptionLoop
open RlStatsApi.MockServer (CliOptions)
open RlStatsApi.BroadcastArguments (ArgumentError readU16 readU64 integer writeInteger readU16_write
  readU64_write integer_ok integer_set)

def parseEventFilterValue (value : String) (out : List String) : List String :=
  (value.toList.splitOn ',').foldl (fun out raw =>
    if trim raw = [] then out else out++[String.ofList (trim raw)]) out

/-- What an argument without a value may answer itself. -/
inductive Answer where
  | help
  | listEvents

def default : CliOptions := ⟨"0.0.0.0",49122,1000,none,[],true,false⟩

def setInterval (value : String) (cli : CliOptions) : Except ArgumentError CliOptions :=
  match integer readU64 value with
  | .error e => .error e
  | .ok ms =>
    if ms = 0 then .error (.message "--interval-ms must be at least 1")
    else .ok {cli with intervalMs := ms}

def entry : String → Entry CliOptions ArgumentError Answer
  | "--ws-host" => .valued (.message "--ws-host requires a value")
    (fun value cli => .ok {cli with wsHost := value})
  | "--ws-port" => .valued (.message "--ws-port requires a value")
    (fun value cli => (integer readU16 value).map (fun port =>
      {cli with wsPort := UInt16.ofNat port.val}))
  | "--interval-ms" => .valued (.message "--interval-ms requires a value") setInterval
  | "--max-events" => .valued (.message "--max-events requires a value")
    (fun value cli => (integer readU64 value).map (fun max =>
      {cli with maxEvents := some max.val}))
  | "--event" | "--events" => .valued (.message "--event requires a value")
    (fun value cli => .ok {cli with eventFilters := parseEventFilterValue value cli.eventFilters})
  | "--no-loop" => .flag (fun cli => {cli with loopEvents := false})
  | "--loop" => .flag (fun cli => {cli with loopEvents := true})
  | "--list-events" => .leave .listEvents
  | "-d" | "--debug" => .flag (fun cli => {cli with debug := true})
  | "-h" | "--help" => .leave .help
  | other => .refuse (.message ("Unknown argument: "++other))

inductive ParseOutcome where
  | run (cli : CliOptions)
  | help
  | listEvents

def parseArgsFrom (args : List String) : Except ArgumentError ParseOutcome :=
  match parse entry args default with
  | .ok (.inl cli) => .ok (.run cli)
  | .ok (.inr .help) => .ok .help
  | .ok (.inr .listEvents) => .ok .listEvents
  | .error e => .error e

/-! ## What a group gives -/

/-- The names of a list, without blanks around them. -/
def filterValues (value : String) : List String :=
  (((value.toList.splitOn ',').map trim).filter (fun t => decide (t ≠ []))).map String.ofList

def readInterval (value : String) : Option U64 := (readU64 value).filter (fun ms => decide (ms ≠ 0))

def readPort (value : String) : Option UInt16 := (readU16 value).map (fun p => UInt16.ofNat p.val)

def wsHost : List String → Option String := valueOf ["--ws-host"] some
def wsPort : List String → Option UInt16 := valueOf ["--ws-port"] readPort
def intervalMs : List String → Option U64 := valueOf ["--interval-ms"] readInterval
def maxEvents : List String → Option ℕ :=
  valueOf ["--max-events"] (fun value => (readU64 value).map Fin.val)
def eventFilters : List String → Option (List String) :=
  valueOf ["--event","--events"] (fun value => some (filterValues value))
def loopEvents (group : List String) : Option Bool :=
  (flagOf ["--no-loop"] false group).or (flagOf ["--loop"] true group)
def debug : List String → Option Bool := flagOf ["-d","--debug"] true

def applied (group : List String) (cli : CliOptions) : CliOptions where
  wsHost := (wsHost group).getD cli.wsHost
  wsPort := (wsPort group).getD cli.wsPort
  intervalMs := (intervalMs group).getD cli.intervalMs
  maxEvents := (maxEvents group).or cli.maxEvents
  eventFilters := cli.eventFilters++(eventFilters group).getD []
  loopEvents := (loopEvents group).getD cli.loopEvents
  debug := (debug group).getD cli.debug

/-- It gives one of the fields a value. -/
def wellFormed (group : List String) : Prop :=
  (wsHost group).isSome ∨ (wsPort group).isSome ∨ (intervalMs group).isSome ∨
  (maxEvents group).isSome ∨ (eventFilters group).isSome ∨ (loopEvents group).isSome ∨
  (debug group).isSome

theorem parseEventFilterValue_eq (value : String) (out : List String) :
    parseEventFilterValue value out = out++filterValues value := by
  rw [parseEventFilterValue, filterValues]
  induction value.toList.splitOn ',' generalizing out with
  | nil => simp
  | cons raw parts ih =>
    rw [List.foldl_cons, ih, List.map_cons, List.filter_cons]
    by_cases h : trim raw = []
    · simp [h]
    · simp [h]

theorem setInterval_ok (value : String) (ms : U64) (cli : CliOptions)
    (h : readInterval value = some ms) : setInterval value cli = .ok {cli with intervalMs := ms} := by
  obtain ⟨hread,hms⟩ := Option.filter_eq_some_iff.mp h
  rw [setInterval, integer, hread]
  exact if_neg (by simpa using hms)

theorem setInterval_some (value : String) (cli cli' : CliOptions)
    (h : setInterval value cli = .ok cli') :
    ∃ ms, readInterval value = some ms ∧ {cli with intervalMs := ms} = cli' := by
  cases hread : readU64 value with
  | none =>
    rw [setInterval, integer, hread] at h
    cases h
  | some ms =>
    rw [setInterval, integer, hread] at h
    simp only at h
    split_ifs at h with hms
    cases h
    exact ⟨ms,by simp [readInterval, hread, hms],rfl⟩

/-- A field is left alone by the groups of the other names. -/
theorem group_applied (group : List String) (set : CliOptions → Except ArgumentError CliOptions)
    (cli cli' : CliOptions) (hg : Group entry group set) (hs : set cli = .ok cli') :
    wellFormed group ∧ cli' = applied group cli := by
  cases hg with
  | flag arg set h =>
    cases hs
    unfold entry at h
    split at h <;> cases h <;>
      exact ⟨by simp [wellFormed, loopEvents, debug, flagOf],by
        simp [applied, wsHost, wsPort, intervalMs, maxEvents, eventFilters, loopEvents, debug,
          valueOf, flagOf]⟩
  | valued arg value missing set h =>
    unfold entry at h
    split at h <;> cases h
    all_goals first
      | cases hs
        exact ⟨by simp [wellFormed, wsHost, eventFilters, valueOf],by
          simp [applied, wsHost, wsPort, intervalMs, maxEvents, eventFilters, loopEvents, debug,
            valueOf, flagOf, parseEventFilterValue_eq]⟩
      | obtain ⟨n,hn,rfl⟩ := integer_set _ _ _ _ hs
        exact ⟨by simp [wellFormed, wsPort, readPort, maxEvents, valueOf, hn],by
          simp [applied, wsHost, wsPort, readPort, intervalMs, maxEvents, eventFilters, loopEvents,
            debug, valueOf, flagOf, hn]⟩
      | obtain ⟨ms,hms,rfl⟩ := setInterval_some _ _ _ hs
        exact ⟨by simp [wellFormed, intervalMs, valueOf, hms],by
          simp [applied, wsHost, wsPort, intervalMs, maxEvents, eventFilters, loopEvents, debug,
            valueOf, flagOf, hms]⟩

theorem group_complete (group : List String) (h : wellFormed group) :
    ∃ set, Group entry group set ∧ ∀ cli, set cli = .ok (applied group cli) := by
  have hset : ∃ set, Group entry group set ∧ ∀ cli, ∃ cli', set cli = .ok cli' := by
    rcases h with h | h | h | h | h | h | h
    · exact valued_complete entry _ _ (fun name hn => by
        fin_cases hn
        exact ⟨_,_,rfl,fun _ _ _ _ => ⟨_,rfl⟩⟩) group h
    · exact valued_complete entry _ _ (fun name hn => by
        fin_cases hn
        refine ⟨_,_,rfl,fun value t cli ht => ?_⟩
        obtain ⟨port,hport,rfl⟩ := Option.map_eq_some_iff.mp ht
        exact integer_ok _ _ value port hport) group h
    · exact valued_complete entry _ _ (fun name hn => by
        fin_cases hn
        exact ⟨_,_,rfl,fun value ms cli hms => ⟨_,setInterval_ok value ms cli hms⟩⟩) group h
    · exact valued_complete entry _ _ (fun name hn => by
        fin_cases hn
        refine ⟨_,_,rfl,fun value t cli ht => ?_⟩
        obtain ⟨max,hmax,rfl⟩ := Option.map_eq_some_iff.mp ht
        exact integer_ok _ _ value max hmax) group h
    · exact valued_complete entry _ _ (fun name hn => by
        fin_cases hn
        all_goals exact ⟨_,_,rfl,fun _ _ _ _ => ⟨_,rfl⟩⟩) group h
    · rw [loopEvents, Option.isSome_or, Bool.or_eq_true] at h
      rcases h with h | h
      · exact flag_complete entry _ _ (fun name hn => by fin_cases hn; exact ⟨_,rfl⟩) group h
      · exact flag_complete entry _ _ (fun name hn => by fin_cases hn; exact ⟨_,rfl⟩) group h
    · exact flag_complete entry _ _ (fun name hn => by fin_cases hn <;> exact ⟨_,rfl⟩) group h
  obtain ⟨set,hg,hok⟩ := hset
  refine ⟨set,hg,fun cli => ?_⟩
  obtain ⟨cli',hcli⟩ := hok cli
  rw [hcli, (group_applied group set cli cli' hg hcli).2]

theorem options_described : Described entry wellFormed applied :=
  ⟨group_applied,group_complete⟩

/-! ## Lines -/

/-- The last value that the groups give a field, or else its default, and all
names of events. -/
def settled (groups : List (List String)) : CliOptions where
  wsHost := (last wsHost groups).getD "0.0.0.0"
  wsPort := (last wsPort groups).getD 49122
  intervalMs := (last intervalMs groups).getD 1000
  maxEvents := last maxEvents groups
  eventFilters := groups.flatMap (fun group => (eventFilters group).getD [])
  loopEvents := (last loopEvents groups).getD true
  debug := (last debug groups).getD false

theorem options_ext (a b : CliOptions) (hhost : a.wsHost = b.wsHost) (hport : a.wsPort = b.wsPort)
    (hinterval : a.intervalMs = b.intervalMs) (hmax : a.maxEvents = b.maxEvents)
    (hfilters : a.eventFilters = b.eventFilters) (hloop : a.loopEvents = b.loopEvents)
    (hdebug : a.debug = b.debug) : a = b := by
  cases a
  cases b
  simp_all

theorem applyAll_settled (groups : List (List String)) :
    applyAll applied groups default = settled groups := by
  apply options_ext
  · exact applyAll_getD applied CliOptions.wsHost wsHost (fun _ _ => rfl) groups _
  · exact applyAll_getD applied CliOptions.wsPort wsPort (fun _ _ => rfl) groups _
  · exact applyAll_getD applied CliOptions.intervalMs intervalMs (fun _ _ => rfl) groups _
  · exact (applyAll_last applied CliOptions.maxEvents maxEvents (fun _ _ => rfl) groups _).trans
      Option.or_none
  · exact applyAll_added applied CliOptions.eventFilters _ (fun _ _ => rfl) groups _
  · exact applyAll_getD applied CliOptions.loopEvents loopEvents (fun _ _ => rfl) groups _
  · exact applyAll_getD applied CliOptions.debug debug (fun _ _ => rfl) groups _

theorem run_iff (args : List String) (cli : CliOptions) :
    parseArgsFrom args = .ok (.run cli) ↔ ∃ groups : List (List String), args = groups.flatten ∧
      (∀ group ∈ groups, wellFormed group) ∧ cli = settled groups := by
  have hparse : parseArgsFrom args = .ok (.run cli) ↔
      parse entry args default = .ok (.inl cli) := by
    unfold parseArgsFrom
    split <;> simp_all
  rw [hparse, parse_settled_iff options_described]
  simp only [applyAll_settled]

/-! ## The options that there are -/

/-- A name that is read as it stands. -/
def Plain (name : String) : Prop :=
  trim name.toList ≠ [] ∧ trim name.toList = name.toList ∧ ',' ∉ name.toList

structure Valid (cli : CliOptions) : Prop where
  interval : cli.intervalMs ≠ 0
  maxEvents : ∀ max, cli.maxEvents = some max → max < 2^64
  filters : ∀ name ∈ cli.eventFilters, Plain name

theorem trim_trim (s : Text) : trim (trim s) = trim s :=
  trim_eq_self (trim s) (fun c hc => trim_head s c hc) (fun c hc => trim_last s c hc)

theorem trim_sublist (s : Text) : (trim s).Sublist s :=
  (List.rdropWhile_prefix _ _).sublist.trans (List.dropWhile_suffix _).sublist

theorem filterValues_plain (value name : String) (h : name ∈ filterValues value) : Plain name := by
  obtain ⟨t,ht,rfl⟩ := List.mem_map.mp h
  obtain ⟨ht,hne⟩ := List.mem_filter.mp ht
  obtain ⟨raw,hraw,rfl⟩ := List.mem_map.mp ht
  have hcomma : ',' ∉ raw := not_mem_splitOn ',' _ raw hraw
  refine ⟨?_,?_,?_⟩
  · rw [String.toList_ofList, trim_trim]
    simpa using hne
  · rw [String.toList_ofList, trim_trim]
  · rw [String.toList_ofList]
    exact fun hmem => hcomma ((trim_sublist raw).subset hmem)

theorem filterValues_self (name : String) (h : Plain name) : filterValues name = [name] := by
  obtain ⟨hne,htrim,hcomma⟩ := h
  rw [filterValues, List.splitOn_eq_singleton hcomma]
  simp [htrim, htrim ▸ hne]

theorem readInterval_pos (value : String) (ms : U64) (h : readInterval value = some ms) :
    ms ≠ 0 := by simpa using (Option.filter_eq_some_iff.mp h).2

theorem applied_valid (group : List String) (cli : CliOptions) (h : Valid cli) :
    Valid (applied group cli) := by
  refine ⟨?_,?_,?_⟩
  · change (intervalMs group).getD cli.intervalMs ≠ 0
    cases hms : intervalMs group with
    | none => exact h.interval
    | some ms =>
      obtain ⟨value,hvalue⟩ := valueOf_read _ _ group ms hms
      exact readInterval_pos value ms hvalue
  · intro max hmax
    change (maxEvents group).or cli.maxEvents = some max at hmax
    cases hm : maxEvents group with
    | none =>
      rw [hm] at hmax
      exact h.maxEvents max hmax
    | some n =>
      rw [hm] at hmax
      cases hmax
      obtain ⟨value,hvalue⟩ := valueOf_read _ _ group max hm
      obtain ⟨bounded,_,rfl⟩ := Option.map_eq_some_iff.mp hvalue
      exact bounded.isLt
  · intro name hname
    rcases List.mem_append.mp hname with hname | hname
    · exact h.filters name hname
    · cases hf : eventFilters group with
      | none =>
        rw [hf] at hname
        cases hname
      | some names =>
        rw [hf] at hname
        obtain ⟨value,hvalue⟩ := valueOf_read _ _ group names hf
        cases hvalue
        exact filterValues_plain value name hname

theorem settled_valid (groups : List (List String)) : Valid (settled groups) := by
  rw [← applyAll_settled]
  exact applyAll_kept applied Valid applied_valid groups default
    ⟨by decide,fun max h => (by cases h),fun name h => (by cases h)⟩

/-- A line for the options. -/
def render (cli : CliOptions) : List (List String) :=
  [["--ws-host",cli.wsHost],["--ws-port",writeInteger cli.wsPort.toNat],
    ["--interval-ms",writeInteger cli.intervalMs.val]]++
  whenGiven cli.maxEvents (fun max => ["--max-events",writeInteger max])++
  cli.eventFilters.map (fun name => ["--event",name])++
  [[if cli.loopEvents = true then "--loop" else "--no-loop"]]++
  whenGiven (if cli.debug = true then some () else none) (fun _ => ["--debug"])

theorem readPort_write (port : UInt16) : readPort (writeInteger port.toNat) = some port := by
  have hread := readU16_write ⟨port.toNat,port.toNat_lt⟩
  rw [readPort, hread]
  simp

theorem readMax_write (max : ℕ) (h : max < 2^64) :
    (readU64 (writeInteger max)).map Fin.val = some max := by
  rw [readU64_write ⟨max,h⟩]
  rfl

theorem readInterval_write (ms : U64) (h : ms ≠ 0) :
    readInterval (writeInteger ms.val) = some ms := by
  rw [readInterval, readU64_write]
  simpa using h

theorem render_wellFormed (cli : CliOptions) (hv : Valid cli) (group : List String)
    (h : group ∈ render cli) : wellFormed group := by
  simp only [render, List.mem_append, List.mem_cons, List.not_mem_nil, or_false] at h
  rcases h with ((((h | h | h) | h) | h) | h) | h
  · simp [h, wellFormed, wsHost, valueOf]
  · simp [h, wellFormed, wsPort, valueOf, readPort_write]
  · simp [h, wellFormed, intervalMs, valueOf, readInterval_write _ hv.interval]
  · obtain ⟨max,hmax,rfl⟩ := mem_whenGiven _ _ _ h
    have hread := readMax_write max (hv.maxEvents max hmax)
    exact .inr (.inr (.inr (.inl (by simp only [maxEvents, valueOf, List.mem_singleton, if_true,
      hread, Option.isSome_some]))))
  · obtain ⟨name,_,rfl⟩ := List.mem_map.mp h
    simp [wellFormed, eventFilters, valueOf]
  · cases hl : cli.loopEvents <;> simp [h, hl, wellFormed, loopEvents, flagOf]
  · obtain ⟨_,_,rfl⟩ := mem_whenGiven _ _ _ h
    simp [wellFormed, debug, flagOf]

theorem last_events {α : Type} (setting : List String → Option α) (names : List String)
    (h : ∀ name, setting ["--event",name] = none) :
    last setting (names.map (fun name => ["--event",name])) = none := by
  apply last_none
  intro group hgroup
  obtain ⟨name,_,rfl⟩ := List.mem_map.mp hgroup
  exact h name

theorem events_added (names : List String) (h : ∀ name ∈ names, Plain name) :
    (names.map (fun name => ["--event",name])).flatMap (fun group => (eventFilters group).getD []) =
      names := by
  induction names with
  | nil => rfl
  | cons name names ih =>
    have hname := filterValues_self name (h name List.mem_cons_self)
    rw [List.map_cons, List.flatMap_cons, ih (fun n hn => h n (List.mem_cons_of_mem name hn))]
    simp [eventFilters, valueOf, hname]

/-- Each field comes from the groups that name it. -/
theorem settled_render (cli : CliOptions) (hv : Valid cli) : settled (render cli) = cli := by
  apply options_ext
  · simp [settled, render, last_append, last_cons, last_whenGiven, last_events, wsHost, valueOf]
  · simp [settled, render, last_append, last_cons, last_whenGiven, last_events, wsPort, valueOf,
      readPort_write]
  · simp [settled, render, last_append, last_cons, last_whenGiven, last_events, intervalMs, valueOf,
      readInterval_write _ hv.interval]
  · have hmax : cli.maxEvents.bind (fun max => (readU64 (writeInteger max)).map Fin.val) =
        cli.maxEvents := by
      cases hm : cli.maxEvents with
      | none => rfl
      | some max => exact readMax_write max (hv.maxEvents max hm)
    simpa [settled, render, last_append, last_cons, last_whenGiven, last_events, maxEvents,
      valueOf] using hmax
  · have hnames := events_added cli.eventFilters hv.filters
    cases hm : cli.maxEvents <;> cases hd : cli.debug <;>
      simp [settled, render, whenGiven, List.flatMap_append, hnames, hm, hd]
    all_goals simp [eventFilters, valueOf]
  · cases hl : cli.loopEvents <;>
      simp [settled, render, last_append, last_cons, last_whenGiven, last_events, loopEvents, flagOf,
        hl]
  · have hnone := last_events (flagOf ["-d","--debug"] true) cli.eventFilters (fun _ => rfl)
    cases hl : cli.loopEvents <;> cases hd : cli.debug <;>
      simp [settled, render, last_append, last_cons, last_whenGiven, hnone, debug, flagOf, hl, hd]

theorem render_read (cli : CliOptions) (hv : Valid cli) :
    parseArgsFrom (render cli).flatten = .ok (.run cli) :=
  (run_iff _ cli).mpr ⟨render cli,rfl,render_wellFormed cli hv,(settled_render cli hv).symm⟩

/-- A line is accepted when it is made of groups that each give a field a
value. The last one given counts, but the names of events add up. There is a
line for the options with an interval, with a number of events that fits and
with plain names, and for no others. -/
theorem mock_line_read (cli : CliOptions) :
    (∀ args, parseArgsFrom args = .ok (.run cli) ↔ ∃ groups : List (List String),
      args = groups.flatten ∧ (∀ group ∈ groups, wellFormed group) ∧ cli = settled groups) ∧
    ((∃ args, parseArgsFrom args = .ok (.run cli)) ↔ Valid cli) := by
  refine ⟨fun args => run_iff args cli,?_,fun hv => ⟨_,render_read cli hv⟩⟩
  rintro ⟨args,hargs⟩
  obtain ⟨groups,_,_,rfl⟩ := (run_iff args cli).mp hargs
  exact settled_valid groups

end RlStatsApi.MockArguments
