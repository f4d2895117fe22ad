import RlStatsApi.CountedOutput
import RlStatsApi.DecimalText
import RlStatsApi.EventFilters
import RlStatsApi.RelayLoop

/-!
# The event printer

It prints the events that pass its filter, from a connection or from the
lines of the standard input, and counts them. Where it stops, what it has
printed is the start of the passing events.
-/

set_option autoImplicit false

namespace RlStatsApi.RlEvents
open RlStatsApi.TextLines RlStatsApi.DecimalText RlStatsApi.JsonValue RlStatsApi.Error
open RlStatsApi.EventParsing RlStatsApi.EventFilters RlStatsApi.StreamClient RlStatsApi.RelayLoop
open RlStatsApi.CountedOutput RlStatsApi.TextReader

inductive OutputFormat where
  | pretty
  | compact
  | json

/-- The options that the two modes use. -/
structure CliOptions where
  eventKinds : List EventKind := []
  playerName : Option String := none
  playerPrimaryId : Option String := none
  teamNum : Option I64 := none
  matchGuid : Option String := none
  outputFormat : OutputFormat := .pretty
  maxEvents : Option ℕ := none

def buildEventFilter (cli : CliOptions) : EventFilter :=
  let filter := EventFilter.new
  let filter := if cli.eventKinds = [] then filter else filter.includeKinds cli.eventKinds
  let filter := cli.playerName.elim filter filter.withPlayerName
  let filter := cli.playerPrimaryId.elim filter filter.withPlayerPrimaryId
  let filter := cli.teamNum.elim filter filter.withTeamNum
  cli.matchGuid.elim filter filter.withMatchGuid

/-- Printing fails only where the event has no JSON value. -/
def printEvent (event : StatsEvent) : OutputFormat → Outcome Unit
  | .json => (statsEventToValue event).map (fun _ => ())
  | _ => .ok ()

/-! ## What the stream mode announces -/

def outputFormatName : OutputFormat → Text
  | .pretty => "pretty".toList
  | .compact => "compact".toList
  | .json => "json".toList

def eventKindName : EventKind → Text
  | .updateState => "update_state".toList
  | .ballHit => "ball_hit".toList
  | .boostPickup => "boost_pickup".toList
  | .clockUpdatedSeconds => "clock_updated_seconds".toList
  | .countdownBegin => "countdown_begin".toList
  | .crossbarHit => "crossbar_hit".toList
  | .goalReplayEnd => "goal_replay_end".toList
  | .goalReplayStart => "goal_replay_start".toList
  | .goalReplayWillEnd => "goal_replay_will_end".toList
  | .goalScored => "goal_scored".toList
  | .matchCreated => "match_created".toList
  | .matchInitialized => "match_initialized".toList
  | .matchDestroyed => "match_destroyed".toList
  | .matchEnded => "match_ended".toList
  | .matchPaused => "match_paused".toList
  | .matchUnpaused => "match_unpaused".toList
  | .playerJoined => "player_joined".toList
  | .playerLeft => "player_left".toList
  | .podiumStart => "podium_start".toList
  | .replayCreated => "replay_created".toList
  | .roundStarted => "round_started".toList
  | .statfeedEvent => "statfeed_event".toList
  | .unknown => "unknown".toList

/-- The parts of the description, of which the kinds are a set in order of their names. -/
def filterParts (cli : CliOptions) : List Text :=
  (if cli.eventKinds = [] then []
    else ["events=".toList++[','].intercalate
      ((cli.eventKinds.dedup.map eventKindName).mergeSort (fun a b => decide (a ≤ b)))])++
  (cli.playerName.map (fun name => "player=".toList++name.toList)).toList++
  (cli.playerPrimaryId.map (fun id => "player_id=".toList++id.toList)).toList++
  (cli.teamNum.map (fun team => "team=".toList++signedText team.val)).toList++
  (cli.matchGuid.map (fun guid => "match=".toList++guid.toList)).toList

def describeFilters (cli : CliOptions) : Text :=
  if filterParts cli = [] then "all".toList else [' '].intercalate (filterParts cli)

/-- The line that stands before the events of a connection. -/
def announcement (address : Text) (cli : CliOptions) : Text :=
  "Listening on ".toList++address++" (format=".toList++outputFormatName cli.outputFormat++
    ", filters=".toList++describeFilters cli++[')']

theorem printEvent_ok (event : StatsEvent) (format : OutputFormat) :
    printEvent event format = .ok () := by
  cases format with
  | json => cases event <;> rfl
  | _ => rfl

section Modes

variable (cli : CliOptions) (filter : EventFilter)

/-! ## From a connection -/

structure Printing (σ : Type) where
  source : σ
  printed : List StatsEvent
  emitted : ℕ

variable {σ : Type} (S : Source σ)

def reconnectWithBackoff (s : σ) : Except Failure Unit × σ := reconnectRlWithBackoff S 10 none s

/-- A dropped poll is the end of the process, which no code handles here. -/
def streamTurn (w : Printing σ) : Option Exit × Printing σ :=
  match S.nextEvent w.source with
  | (.dropped,s) => (some .shutdown,{w with source := s})
  | (.ready (.ok (some event)),s) =>
    if filter.matches event = true then
      match printEvent event cli.outputFormat with
      | .error e => (some (.failed (.stats e)),{w with source := s})
      | .ok () =>
        let w := ⟨s,w.printed++[event],w.emitted+1⟩
        if reached cli.maxEvents w.emitted = true then (some .maxEvents,w) else (none,w)
    else (none,{w with source := s})
  | (.ready (.ok none),s) | (.ready (.error _),s) =>
    match reconnectWithBackoff S s with
    | (.ok (),s) => (none,{w with source := s})
    | (.error e,s) => (some (.failed e),{w with source := s})

/-- The first `k` turns. -/
def runStreamMode : ℕ → Printing σ → Option Exit × Printing σ
  | 0, w => (none,w)
  | k+1, w =>
    match streamTurn cli filter S w with
    | (none,w) => runStreamMode k w
    | (some exit,w) => (some exit,w)

/-! ## From the standard input -/

inductive StdinExit where
  | ended
  | maxEvents
  | unreadable
  | parseError (lineNumber : ℕ) (error : RlStatsError)
  | failed (e : RlStatsError)

variable (read : Reader) (strict : Bool)

/-- The loop over the lines, of which `none` cannot be read. -/
def stdinLoop : ℕ → List (Option Text) → List StatsEvent → ℕ → StdinExit × List StatsEvent
  | _, [], printed, _ => (.ended,printed)
  | _, none::_, printed, _ => (.unreadable,printed)
  | lineNumber, some line::lines, printed, emitted =>
    let trimmed := trim line
    if trimmed = [] then stdinLoop (lineNumber+1) lines printed emitted
    else
      match parseStatsEvent read (String.ofList trimmed) with
      | .ok event =>
        if filter.matches event = true then
          match printEvent event cli.outputFormat with
          | .error e => (.failed e,printed)
          | .ok () =>
            if reached cli.maxEvents (emitted+1) = true then (.maxEvents,printed++[event])
            else stdinLoop (lineNumber+1) lines (printed++[event]) (emitted+1)
        else stdinLoop (lineNumber+1) lines printed emitted
      | .error error =>
        if strict = true then (.parseError (lineNumber+1) error,printed)
        else stdinLoop (lineNumber+1) lines printed emitted

def runStdinMode (lines : List (Option Text)) : StdinExit × List StatsEvent :=
  stdinLoop cli filter read strict 0 lines [] 0

end Modes

/-! ## The events of an input -/

section Events

variable {σ : Type} (S : Source σ)

/-- The events that the source yields in its first `k` results. -/
def drawn : ℕ → σ → List StatsEvent
  | 0, _ => []
  | k+1, s =>
    match S.nextEvent s with
    | (.dropped,_) => []
    | (.ready (.ok (some event)),s) => event::drawn k s
    | (.ready (.ok none),s) | (.ready (.error _),s) =>
      match reconnectRlWithBackoff S 10 none s with
      | (.ok (),s) => drawn k s
      | (.error _,_) => []

/-- The events of the lines, up to where the loop gives up by itself. -/
def lineEvents (read : Reader) (strict : Bool) :
    List (Option Text) → List StatsEvent
  | [] => []
  | none::_ => []
  | some line::lines =>
    if trim line = [] then lineEvents read strict lines
    else
      match parseStatsEvent read (String.ofList (trim line)) with
      | .ok event => event::lineEvents read strict lines
      | .error _ => if strict = true then [] else lineEvents read strict lines

variable (cli : CliOptions) (filter : EventFilter)

theorem runStreamMode_printed (k : ℕ) (w : Printing σ) (h : Running cli.maxEvents w.emitted) :
    (runStreamMode cli filter S k w).2.printed = w.printed++
      bounded cli.maxEvents w.emitted ((drawn S k w.source).filter filter.matches) := by
  induction k generalizing w with
  | zero => simp [runStreamMode, drawn]
  | succ k ih =>
    rw [runStreamMode, streamTurn, drawn]
    rcases hs : S.nextEvent w.source with ⟨⟨⟨e⟩ | ⟨_ | event⟩⟩ | _,s⟩
    · simp only [reconnectWithBackoff]
      rcases hr : reconnectRlWithBackoff S 10 none s with ⟨_ | _,s'⟩
      · simp
      · exact ih _ h
    · simp only [reconnectWithBackoff]
      rcases hr : reconnectRlWithBackoff S 10 none s with ⟨_ | _,s'⟩
      · simp
      · exact ih _ h
    · by_cases hm : filter.matches event = true
      · simp only [hm, if_true, printEvent_ok, List.filter_cons_of_pos]
        by_cases hr : reached cli.maxEvents (w.emitted+1) = true
        · simp [hr, bounded_cons_stopped h event _ hr]
        · rw [Bool.not_eq_true] at hr
          simp only [hr, Bool.false_eq_true, if_false]
          rw [ih _ ((running_succ_iff h).mpr hr), bounded_cons_running h event _ hr]
          simp
      · simp only [hm, if_false, Bool.false_eq_true]
        rw [List.filter_cons_of_neg (by simpa using hm)]
        exact ih _ h
    · simp

theorem stdinLoop_printed (read : Reader) (strict : Bool)
    (lineNumber : ℕ) (lines : List (Option Text)) (printed : List StatsEvent) (emitted : ℕ)
    (h : Running cli.maxEvents emitted) :
    (stdinLoop cli filter read strict lineNumber lines printed emitted).2 = printed++
      bounded cli.maxEvents emitted ((lineEvents read strict lines).filter filter.matches) := by
  induction lines generalizing lineNumber printed emitted with
  | nil => simp [stdinLoop, lineEvents]
  | cons line lines ih =>
    cases line with
    | none => simp [stdinLoop, lineEvents]
    | some line =>
      rw [stdinLoop, lineEvents]
      by_cases hb : trim line = []
      · simp only [hb, if_true]
        exact ih _ _ _ h
      simp only [hb, if_false]
      cases hp : parseStatsEvent read (String.ofList (trim line)) with
      | error e =>
        cases strict with
        | true => simp
        | false => exact ih _ _ _ h
      | ok event =>
        by_cases hm : filter.matches event = true
        · simp only [hm, if_true, printEvent_ok, List.filter_cons_of_pos]
          by_cases hr : reached cli.maxEvents (emitted+1) = true
          · simp [hr, bounded_cons_stopped h event _ hr]
          · rw [Bool.not_eq_true] at hr
            simp only [hr, Bool.false_eq_true, if_false]
            rw [ih _ _ _ ((running_succ_iff h).mpr hr), bounded_cons_running h event _ hr]
            simp
        · simp only [hm, if_false, Bool.false_eq_true]
          rw [List.filter_cons_of_neg (by simpa using hm)]
          exact ih _ _ _ h

end Events

end RlStatsApi.RlEvents
