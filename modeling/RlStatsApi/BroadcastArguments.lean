import Mathlib.Tactic.FinCases
import RlStatsApi.DecimalText
import RlStatsApi.Error
import RlStatsApi.JsonValue
import RlStatsApi.OptionLoop

/-!
# The command line of the broadcaster

The options come in any order and may come again; of each the last one counts.
What is not given keeps its default. A line written from the options is read
back as the same options.
-/

set_option autoImplicit false

namespace RlStatsApi.BroadcastArguments
open RlStatsApi.TextLines RlStatsApi.DecimalText RlStatsApi.JsonValue RlStatsApi.Error
open RlStatsApi.OptionLoop

/-- An integer that cannot be read fails with a text of the standard library. -/
inductive ArgumentError where
  | message (text : String)
  | integer (value : String)

def readU16 (value : String) : Option U16 := parseUnsigned 65536 value.toList

def readU64 (value : String) : Option U64 := parseUnsigned (2^64) value.toList

def integer {α : Type} (read : String → Option α) (value : String) : Except ArgumentError α :=
  match read value with
  | some n => .ok n
  | none => .error (.integer value)

def writeInteger (n : ℕ) : String := String.ofList (Nat.toDigits 10 n)

theorem readU16_write (n : U16) : readU16 (writeInteger n) = some n := by
  rw [readU16, writeInteger, String.toList_ofList, parseUnsigned_toDigits]

theorem readU64_write (n : U64) : readU64 (writeInteger n) = some n := by
  rw [readU64, writeInteger, String.toList_ofList, parseUnsigned_toDigits]

theorem integer_ok {α σ : Type} (read : String → Option α) (set : α → σ) (value : String) (n : α)
    (h : read value = some n) : ∃ s, (integer read value).map set = .ok s :=
  ⟨set n,by rw [integer, h]; rfl⟩

theorem integer_set {α σ : Type} (read : String → Option α) (value : String) (set : α → σ) (s : σ)
    (h : (integer read value).map set = .ok s) : ∃ n, read value = some n ∧ set n = s := by
  cases hn : read value with
  | none =>
    rw [integer, hn] at h
    cases h
  | some n =>
    rw [integer, hn] at h
    cases h
    exact ⟨n,rfl,rfl⟩

/-! ## The loop -/

@[ext] structure CliOptions where
  iniPath : Option String
  rlHost : Option String
  rlPort : Option U16
  wsHost : String
  wsPort : U16
  reconnectMs : U64
  maxEvents : Option U64
  debug : Bool

def CliOptions.default : CliOptions := ⟨none,none,none,"0.0.0.0",49122,500,none,false⟩

def entry : String → Entry CliOptions ArgumentError Unit
  | "--ini" => .valued (.message "--ini requires a file path")
    (fun value cli => .ok {cli with iniPath := some value})
  | "--host" | "--rl-host" => .valued (.message "--rl-host requires a value")
    (fun value cli => .ok {cli with rlHost := some value})
  | "--port" | "--rl-port" => .valued (.message "--rl-port requires a value")
    (fun value cli => (integer readU16 value).map (fun port => {cli with rlPort := some port}))
  | "--ws-host" => .valued (.message "--ws-host requires a value")
    (fun value cli => .ok {cli with wsHost := value})
  | "--ws-port" => .valued (.message "--ws-port requires a value")
    (fun value cli => (integer readU16 value).map (fun port => {cli with wsPort := port}))
  | "--reconnect-ms" => .valued (.message "--reconnect-ms requires a value")
    (fun value cli => (integer readU64 value).map (fun ms => {cli with reconnectMs := ms}))
  | "--max-events" => .valued (.message "--max-events requires a value")
    (fun value cli => (integer readU64 value).map (fun max => {cli with maxEvents := some max}))
  | "-d" | "--debug" => .flag (fun cli => {cli with debug := true})
  | "-h" | "--help" => .leave ()
  | other => .refuse (.message ("Unknown argument: "++other))

inductive ParseOutcome where
  | run (cli : CliOptions)
  | help

def parseArgsFrom (args : List String) : Except ArgumentError ParseOutcome :=
  match parse entry args .default with
  | .ok (.inl cli) => .ok (.run cli)
  | .ok (.inr ()) => .ok .help
  | .error e => .error e

/-! ## What a group gives -/

def iniPath : List String → Option String := valueOf ["--ini"] some
def rlHost : List String → Option String := valueOf ["--host","--rl-host"] some
def rlPort : List String → Option U16 := valueOf ["--port","--rl-port"] readU16
def wsHost : List String → Option String := valueOf ["--ws-host"] some
def wsPort : List String → Option U16 := valueOf ["--ws-port"] readU16
def reconnectMs : List String → Option U64 := valueOf ["--reconnect-ms"] readU64
def maxEvents : List String → Option U64 := valueOf ["--max-events"] readU64
def debug : List String → Option Bool := flagOf ["-d","--debug"] true

def applied (group : List String) (cli : CliOptions) : CliOptions where
  iniPath := (iniPath group).or cli.iniPath
  rlHost := (rlHost group).or cli.rlHost
  rlPort := (rlPort group).or cli.rlPort
  wsHost := (wsHost group).getD cli.wsHost
  wsPort := (wsPort group).getD cli.wsPort
  reconnectMs := (reconnectMs group).getD cli.reconnectMs
  maxEvents := (maxEvents group).or cli.maxEvents
  debug := (debug group).getD cli.debug

/-- It gives one of the fields a value. -/
def wellFormed (group : List String) : Prop :=
  (iniPath group).isSome ∨ (rlHost group).isSome ∨ (rlPort group).isSome ∨ (wsHost group).isSome ∨
  (wsPort group).isSome ∨ (reconnectMs group).isSome ∨ (maxEvents group).isSome ∨
  (debug group).isSome

/-- A field is left alone by the groups of the other names. -/
theorem group_applied (group : List String) (set : CliOptions → Except ArgumentError CliOptions)
    (cli cli' : CliOptions) (hg : Group entry group set) (hs : set cli = .ok cli') :
    wellFormed group ∧ cli' = applied group cli := by
  cases hg with
  | flag arg set h =>
    cases hs
    unfold entry at h
    split at h <;> cases h <;>
      exact ⟨by simp [wellFormed, debug, flagOf],by
        simp [applied, iniPath, rlHost, rlPort, wsHost, wsPort, reconnectMs, maxEvents, debug,
          valueOf, flagOf]⟩
  | valued arg value missing set h =>
    unfold entry at h
    split at h <;> cases h
    all_goals first
      | cases hs
        exact ⟨by simp [wellFormed, iniPath, rlHost, wsHost, valueOf],by
          simp [applied, iniPath, rlHost, rlPort, wsHost, wsPort, reconnectMs, maxEvents, debug,
            valueOf, flagOf]⟩
      | obtain ⟨n,hn,rfl⟩ := integer_set _ _ _ _ hs
        exact ⟨by simp [wellFormed, rlPort, wsPort, reconnectMs, maxEvents, valueOf, hn],by
          simp [applied, iniPath, rlHost, rlPort, wsHost, wsPort, reconnectMs, maxEvents, debug,
            valueOf, flagOf, hn]⟩

theorem group_complete (group : List String) (h : wellFormed group) :
    ∃ set, Group entry group set ∧ ∀ cli, set cli = .ok (applied group cli) := by
  have hset : ∃ set, Group entry group set ∧ ∀ cli, ∃ cli', set cli = .ok cli' := by
    rcases h with h | h | h | h | h | h | h | h
    · exact valued_complete entry _ _ (fun name hn => by
        fin_cases hn
        all_goals exact ⟨_,_,rfl,fun _ _ _ _ => ⟨_,rfl⟩⟩) group h
    · exact valued_complete entry _ _ (fun name hn => by
        fin_cases hn
        all_goals exact ⟨_,_,rfl,fun _ _ _ _ => ⟨_,rfl⟩⟩) group h
    · exact valued_complete entry _ _ (fun name hn => by
        fin_cases hn
        all_goals exact ⟨_,_,rfl,fun _ _ _ h => integer_ok _ _ _ _ h⟩) group h
    · exact valued_complete entry _ _ (fun name hn => by
        fin_cases hn
        all_goals exact ⟨_,_,rfl,fun _ _ _ _ => ⟨_,rfl⟩⟩) group h
    · exact valued_complete entry _ _ (fun name hn => by
        fin_cases hn
        all_goals exact ⟨_,_,rfl,fun _ _ _ h => integer_ok _ _ _ _ h⟩) group h
    · exact valued_complete entry _ _ (fun name hn => by
        fin_cases hn
        all_goals exact ⟨_,_,rfl,fun _ _ _ h => integer_ok _ _ _ _ h⟩) group h
    · exact valued_complete entry _ _ (fun name hn => by
        fin_cases hn
        all_goals exact ⟨_,_,rfl,fun _ _ _ h => integer_ok _ _ _ _ h⟩) group h
    · exact flag_complete entry _ _ (fun name hn => by fin_cases hn <;> exact ⟨_,rfl⟩) group h
  obtain ⟨set,hg,hok⟩ := hset
  refine ⟨set,hg,fun cli => ?_⟩
  obtain ⟨cli',hcli⟩ := hok cli
  rw [hcli, (group_applied group set cli cli' hg hcli).2]

theorem options_described : Described entry wellFormed applied :=
  ⟨group_applied,group_complete⟩

/-! ## Lines -/

/-- The last value that the groups give a field, or else its default. -/
def settled (groups : List (List String)) : CliOptions where
  iniPath := last iniPath groups
  rlHost := last rlHost groups
  rlPort := last rlPort groups
  wsHost := (last wsHost groups).getD "0.0.0.0"
  wsPort := (last wsPort groups).getD 49122
  reconnectMs := (last reconnectMs groups).getD 500
  maxEvents := last maxEvents groups
  debug := (last debug groups).getD false

theorem applyAll_settled (groups : List (List String)) :
    applyAll applied groups .default = settled groups := by
  apply CliOptions.ext
  · exact (applyAll_last applied CliOptions.iniPath iniPath (fun _ _ => rfl) groups _).trans
      Option.or_none
  · exact (applyAll_last applied CliOptions.rlHost rlHost (fun _ _ => rfl) groups _).trans
      Option.or_none
  · exact (applyAll_last applied CliOptions.rlPort rlPort (fun _ _ => rfl) groups _).trans
      Option.or_none
  · exact applyAll_getD applied CliOptions.wsHost wsHost (fun _ _ => rfl) groups _
  · exact applyAll_getD applied CliOptions.wsPort wsPort (fun _ _ => rfl) groups _
  · exact applyAll_getD applied CliOptions.reconnectMs reconnectMs (fun _ _ => rfl) groups _
  · exact (applyAll_last applied CliOptions.maxEvents maxEvents (fun _ _ => rfl) groups _).trans
      Option.or_none
  · exact applyAll_getD applied CliOptions.debug debug (fun _ _ => rfl) groups _

theorem run_iff (args : List String) (cli : CliOptions) :
    parseArgsFrom args = .ok (.run cli) ↔ ∃ groups : List (List String), args = groups.flatten ∧
      (∀ group ∈ groups, wellFormed group) ∧ cli = settled groups := by
  have hparse : parseArgsFrom args = .ok (.run cli) ↔
      parse entry args .default = .ok (.inl cli) := by
    unfold parseArgsFrom
    split <;> simp_all
  rw [hparse, parse_settled_iff options_described]
  simp only [applyAll_settled]

theorem help_iff (args : List String) :
    parseArgsFrom args = .ok .help ↔ ∃ (groups : List (List String)) (name : String)
      (rest : List String), args = groups.flatten++name::rest ∧
      (∀ group ∈ groups, wellFormed group) ∧ name ∈ ["-h","--help"] := by
  have hparse : parseArgsFrom args = .ok .help ↔ parse entry args .default = .ok (.inr ()) := by
    unfold parseArgsFrom
    split <;> simp_all
  have hname : ∀ name, entry name = .leave () ↔ name ∈ ["-h","--help"] := by
    intro name
    constructor
    · intro h
      unfold entry at h
      split at h <;> cases h <;> simp
    · intro h
      fin_cases h <;> rfl
  rw [hparse, parse_left_iff options_described]
  simp only [hname]

/-- A line for the options. -/
def render (cli : CliOptions) : List (List String) :=
  whenGiven cli.iniPath (fun path => ["--ini",path])++
  whenGiven cli.rlHost (fun host => ["--rl-host",host])++
  whenGiven cli.rlPort (fun port => ["--rl-port",writeInteger port.val])++
  [["--ws-host",cli.wsHost],["--ws-port",writeInteger cli.wsPort.val],
    ["--reconnect-ms",writeInteger cli.reconnectMs.val]]++
  whenGiven cli.maxEvents (fun max => ["--max-events",writeInteger max.val])++
  whenGiven (if cli.debug = true then some () else none) (fun _ => ["--debug"])

theorem render_wellFormed (cli : CliOptions) (group : List String) (h : group ∈ render cli) :
    wellFormed group := by
  simp only [render, List.mem_append, List.mem_cons, List.not_mem_nil, or_false] at h
  rcases h with ((((h | h) | h) | h | h | h) | h) | h
  · obtain ⟨path,_,rfl⟩ := mem_whenGiven _ _ _ h
    simp [wellFormed, iniPath, valueOf]
  · obtain ⟨host,_,rfl⟩ := mem_whenGiven _ _ _ h
    simp [wellFormed, rlHost, valueOf]
  · obtain ⟨port,_,rfl⟩ := mem_whenGiven _ _ _ h
    simp [wellFormed, rlPort, valueOf, readU16_write]
  · simp [h, wellFormed, wsHost, valueOf]
  · simp [h, wellFormed, wsPort, valueOf, readU16_write]
  · simp [h, wellFormed, reconnectMs, valueOf, readU64_write]
  · obtain ⟨max,_,rfl⟩ := mem_whenGiven _ _ _ h
    simp [wellFormed, maxEvents, valueOf, readU64_write]
  · obtain ⟨_,_,rfl⟩ := mem_whenGiven _ _ _ h
    simp [wellFormed, debug, flagOf]

/-- Each field comes from the one group that names it. -/
theorem settled_render (cli : CliOptions) : settled (render cli) = cli := by
  apply CliOptions.ext
  · simp [settled, render, last_append, last_cons, last_whenGiven, iniPath, valueOf]
  · simp [settled, render, last_append, last_cons, last_whenGiven, rlHost, valueOf]
  · simp [settled, render, last_append, last_cons, last_whenGiven, rlPort, valueOf, readU16_write]
  · simp [settled, render, last_append, last_cons, last_whenGiven, wsHost, valueOf]
  · simp [settled, render, last_append, last_cons, last_whenGiven, wsPort, valueOf, readU16_write]
  · simp [settled, render, last_append, last_cons, last_whenGiven, reconnectMs, valueOf,
      readU64_write]
  · simp [settled, render, last_append, last_cons, last_whenGiven, maxEvents, valueOf,
      readU64_write]
  · cases hd : cli.debug <;>
      simp [settled, render, last_append, last_cons, last_whenGiven, debug, flagOf, hd]

/-- A line is accepted when it is made of groups that each give a field a
value, and each field has the last one given. A line can be written for any
options, which are then the defaults of what is added to it. -/
theorem line_read (args : List String) :
    (∀ cli, parseArgsFrom args = .ok (.run cli) ↔ ∃ groups : List (List String),
      args = groups.flatten ∧ (∀ group ∈ groups, wellFormed group) ∧ cli = settled groups) ∧
    (parseArgsFrom args = .ok .help ↔ ∃ (groups : List (List String)) (name : String)
      (rest : List String), args = groups.flatten++name::rest ∧
      (∀ group ∈ groups, wellFormed group) ∧ name ∈ ["-h","--help"]) ∧
    ∀ cli, parseArgsFrom (render cli).flatten = .ok (.run cli) ∧
      parse entry ((render cli).flatten++args) .default = parse entry args cli := by
  refine ⟨run_iff args,help_iff args,fun cli => ?_⟩
  have hrun : parse entry (render cli).flatten .default = .ok (.inl cli) := by
    rw [parse_settled_iff options_described]
    exact ⟨render cli,rfl,render_wellFormed cli,by rw [applyAll_settled, settled_render]⟩
  refine ⟨?_,parse_append entry _ args _ cli hrun⟩
  rw [parseArgsFrom, hrun]

end RlStatsApi.BroadcastArguments
