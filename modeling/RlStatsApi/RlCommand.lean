import RlStatsApi.BroadcastArguments
import RlStatsApi.ClientTraffic
import RlStatsApi.ConnectRetry

/-!
# Sending one command

The program reads a command from its line, sends it to the game and names
the events that follow, other than the updates, until its time is over. The
game receives this one command, or the start of its text where the write
fails. A time that reaches past the last instant of the clock makes the
program panic, after the command has gone out.
-/

set_option autoImplicit false

namespace RlStatsApi.RlCommand
open RlStatsApi.TextLines RlStatsApi.JsonValue RlStatsApi.Error RlStatsApi.EventParsing
open RlStatsApi.StreamFraming RlStatsApi.StreamClient RlStatsApi.StreamRuns
open RlStatsApi.ClientConfig RlStatsApi.StatsCommands RlStatsApi.PythonClient
open RlStatsApi.ClientTraffic RlStatsApi.ConnectRetry RlStatsApi.FilteredClient
open RlStatsApi.TextReader
open RlStatsApi.BroadcastArguments (readU16 readU64)
open RlStatsApi.RelayLoop (accepted objects plainAgain plainAgain_ready)

/-! ## The line -/

structure CliOptions where
  host : String
  port : U16
  watchSeconds : U64
  command : StatsCommand

/-- The options as they are read, with the text of the command. -/
structure Line where
  host : String
  port : U16
  watchSeconds : U64
  rawCommand : Option String

def Line.default : Line := ⟨"127.0.0.1",defaultPort,3,none⟩

inductive LineError where
  | message (text : String)
  | command (e : RlStatsError)

def dashed (arg : String) : Bool := ['-','-'].isPrefixOf arg.toList

/-- The line that is read, or `none` where help is asked for. -/
def parseLine : List String → Line → Except LineError (Option Line)
  | [], line => .ok (some line)
  | "--host"::[], _ => .error (.message "--host requires a value")
  | "--host"::value::args, line => parseLine args {line with host := value}
  | "--port"::[], _ => .error (.message "--port requires a value")
  | "--port"::value::args, line =>
    match readU16 value with
    | some port => parseLine args {line with port := port}
    | none => .error (.message "--port must be a number")
  | "--watch"::[], _ => .error (.message "--watch requires seconds")
  | "--watch"::value::args, line =>
    match readU64 value with
    | some seconds => parseLine args {line with watchSeconds := seconds}
    | none => .error (.message "--watch must be a number")
  | "-h"::_, _ | "--help"::_, _ => .ok none
  | other::args, line =>
    if line.rawCommand.isNone = true ∧ dashed other = false then
      parseLine args {line with rawCommand := some other}
    else .error (.message ("Unknown argument: "++other))

section Run

variable (print : Value → String) (D : Deserializer Json)
variable (read : Reader) (display : Value → String)

def parseArgs (args : List String) : Except LineError (Option CliOptions) :=
  match parseLine args .default with
  | .error e => .error e
  | .ok none => .ok none
  | .ok (some line) =>
    match line.rawCommand with
    | none => .error (.message "missing command JSON")
    | some raw =>
      match commandOf read display raw with
      | .error e => .error (.command e)
      | .ok command => .ok (some ⟨line.host,line.port,line.watchSeconds,command⟩)

/-! ## The run -/

def CliOptions.options (cli : CliOptions) : ClientOptions :=
  {host := cli.host, portOverride := some cli.port, autoEnablePacketRate := false}

/-- The clock at the send: the seconds it shows, and the last that an instant
can hold. -/
structure Clock where
  now : ℕ
  last : ℕ

/-- The deadline, where there is such an instant. -/
def Clock.plus (clock : Clock) (seconds : U64) : Option ℕ :=
  if clock.now+seconds.val ≤ clock.last then some (clock.now+seconds.val) else none

/-- The names of the events up to the deadline, at which the call for the
next one is dropped. -/
def watch (c : Client) : List String × Outcome Unit :=
  match _h : c.nextEvent D read with
  | (.dropped,_) => ([],.ok ())
  | (.ready (.ok (some event)),c') =>
    let rest := watch c'
    if statsEventName event ≠ "UpdateState" then (statsEventName event::rest.1,rest.2) else rest
  | (.ready (.ok none),_) => ([],.ok ())
  | (.ready (.error e),_) => ([],.error e)
termination_by c.bytes.length
decreasing_by exact nextEvent_shrinks D read c.reader c.readBuffer event c' _h

/-- The result, `none` where the preparation or the deadline panics, the
connection and the names that were printed. -/
structure Ran where
  result : Option (Outcome Unit)
  socket : Option RlClient
  echoed : List String

def run (cli : CliOptions) (clock : Clock) (a : Attempt) : Ran :=
  match (connect cli.options a a.disk.contents).1 with
  | none => ⟨none,none,[]⟩
  | some (.error e) => ⟨some (.error e),none,[]⟩
  | some (.ok client) =>
    match cli.command.toValue with
    | .error e => ⟨some (.error e),some client,[]⟩
    | .ok _ =>
      match client.sendCommand print cli.command with
      | (.error e,client) => ⟨some (.error e),some client,[]⟩
      | (.ok (),client) =>
        match clock.plus cli.watchSeconds with
        | none => ⟨none,some client,[]⟩
        | some _ =>
          let watched := watch D read client.stream
          ⟨some watched.2,some client,watched.1⟩

/-! ## What the line says -/

/-- The text of the command is the first argument that is no option. -/
theorem parseLine_raw (args : List String) (line line' : Line)
    (h : parseLine args line = .ok (some line')) :
    line'.rawCommand = line.rawCommand ∨
      ∃ raw ∈ args, line.rawCommand = none ∧ line'.rawCommand = some raw ∧ dashed raw = false := by
  fun_induction parseLine args line with
  | case1 line =>
    cases h
    exact .inl rfl
  | case3 line value args ih | case5 line value args port hp ih | case8 line value args n hn ih =>
    rcases ih h with hk | ⟨raw,hm,hn,hr,hd⟩
    · exact .inl hk
    · exact .inr ⟨raw,List.mem_cons_of_mem _ (List.mem_cons_of_mem _ hm),hn,hr,hd⟩
  | case12 other args line _ _ _ _ _ _ _ _ hother ih =>
    obtain ⟨hnone,hdash⟩ := hother
    rcases ih h with hk | ⟨raw,_,hn,_⟩
    · exact .inr ⟨other,List.mem_cons_self,Option.isNone_iff_eq_none.mp hnone,hk,hdash⟩
    · cases hn
  | _ => cases h

theorem parseArgs_command (args : List String) (cli : CliOptions)
    (h : parseArgs read display args = .ok (some cli)) :
    (∃ raw ∈ args, dashed raw = false ∧ commandOf read display raw = .ok cli.command) ∧
      cli.command.validate = .ok () := by
  unfold parseArgs at h
  split at h
  · cases h
  · cases h
  · next line hline =>
    split at h
    · cases h
    · next raw hraw =>
      split at h
      · cases h
      · next command hc =>
        cases h
        refine ⟨?_,(commandOf_valid read display raw command hc).1⟩
        rcases parseLine_raw args .default line hline with hk | ⟨raw',hm,_,hr,hd⟩
        · rw [hk] at hraw
          cases hraw
        · rw [hr] at hraw
          cases hraw
          exact ⟨raw,hm,hd,hc⟩

/-! ## What is printed -/

/-- The names of the events before the first value that is rejected. -/
def echoes (vs : List Json) : List String :=
  ((accepted read vs).map statsEventName).filter (fun name => decide (name ≠ "UpdateState"))

/-- How a stream ends without a deadline. -/
def verdict : List Json → Ending → Outcome Unit
  | [], .closed => .ok ()
  | [], .broken => .error (.json .malformed)
  | v::vs, e =>
    match parseStatsEventValue read v.1 with
    | .ok _ => verdict vs e
    | .error err => .error err

theorem watch_event (c c' : Client) (event : StatsEvent)
    (h : c.nextEvent D read = (.ready (.ok (some event)),c')) :
    watch D read c = if statsEventName event ≠ "UpdateState" then
      (statsEventName event::(watch D read c').1,(watch D read c').2) else watch D read c' := by
  rw [watch]
  split
  · next h1 => rw [h] at h1; cases h1
  · next h1 => rw [h] at h1; cases h1; rfl
  · next h1 => rw [h] at h1; cases h1
  · next h1 => rw [h] at h1; cases h1

theorem watch_over (c c' : Client) (x : Poll (Outcome (Option StatsEvent))) (r : Outcome Unit)
    (h : c.nextEvent D read = (x,c'))
    (hx : x = .dropped ∧ r = .ok () ∨ x = .ready (.ok none) ∧ r = .ok () ∨
      ∃ e, x = .ready (.error e) ∧ r = .error e) : watch D read c = ([],r) := by
  rw [watch]
  split
  · next h1 =>
    rw [h] at h1
    cases h1
    rcases hx with ⟨_,rfl⟩ | ⟨hx,_⟩ | ⟨_,hx,_⟩
    · rfl
    · cases hx
    · cases hx
  · next h1 =>
    rw [h] at h1
    cases h1
    rcases hx with ⟨hx,_⟩ | ⟨hx,_⟩ | ⟨_,hx,_⟩ <;> cases hx
  · next h1 =>
    rw [h] at h1
    cases h1
    rcases hx with ⟨hx,_⟩ | ⟨_,rfl⟩ | ⟨_,hx,_⟩
    · cases hx
    · rfl
    · cases hx
  · next h1 =>
    rw [h] at h1
    cases h1
    rcases hx with ⟨hx,_⟩ | ⟨hx,_⟩ | ⟨_,hx,rfl⟩
    · cases hx
    · cases hx
    · cases hx
      rfl

/-- On a framed stream the events are named in order, and all of them where
the deadline does not come first. -/
theorem watch_stream (c : Client) (vs : List Json) (e : Ending) (h : Serves D c vs e) :
    (watch D read c).1 <+: echoes read vs ∧
      (drops c.reader = 0 → watch D read c = (echoes read vs,verdict read vs e)) := by
  induction vs generalizing c with
  | nil =>
    rcases nextEvent_stream D read c.reader c.readBuffer [] e h with
      ⟨v,vs',c',hvs,_⟩ | ⟨c',hc,hs,hd⟩ | ⟨c',_,hc,_⟩
    · cases hvs
    · rw [watch_over D read c c' _ (.ok ()) hc (.inl ⟨rfl,rfl⟩)]
      exact ⟨List.nil_prefix,fun h0 => by omega⟩
    · cases e with
      | closed =>
        rw [watch_over D read c c' _ (.ok ()) hc (.inr (.inl ⟨rfl,rfl⟩))]
        exact ⟨List.nil_prefix,fun _ => rfl⟩
      | broken =>
        rw [watch_over D read c c' _ (.error (.json .malformed)) hc (.inr (.inr ⟨_,rfl,rfl⟩))]
        exact ⟨List.nil_prefix,fun _ => rfl⟩
  | cons v vs ih =>
    rcases nextEvent_stream D read c.reader c.readBuffer (v::vs) e h with
      ⟨v',vs',c',hvs,hc,hs,hd⟩ | ⟨c',hc,hs,hd⟩ | ⟨c',hvs,_⟩
    · cases hvs
      rw [echoes, accepted, verdict]
      cases hp : parseStatsEventValue read v.1 with
      | error err =>
        have hc' : c.nextEvent D read = (.ready (.error err),c') := by
          have hv : delivered read v = .error err := by rw [delivered, hp]; rfl
          rw [← hv]
          exact hc
        rw [watch_over D read c c' _ (.error err) hc' (.inr (.inr ⟨_,rfl,rfl⟩))]
        exact ⟨List.nil_prefix,fun _ => rfl⟩
      | ok event =>
        have hc' : c.nextEvent D read = (.ready (.ok (some event)),c') := by
          have hv : delivered read v = .ok (some event) := by rw [delivered, hp]; rfl
          rw [← hv]
          exact hc
        obtain ⟨hbegin,hall⟩ := ih c' hs
        rw [watch_event D read c c' event hc', List.map_cons]
        by_cases hn : statsEventName event ≠ "UpdateState"
        · rw [if_pos hn, List.filter_cons_of_pos (by simpa using hn)]
          refine ⟨List.cons_prefix_cons.mpr ⟨rfl,hbegin⟩,fun h0 => ?_⟩
          rw [hall (by omega)]
          rfl
        · rw [if_neg hn, List.filter_cons_of_neg (by simpa using hn)]
          exact ⟨hbegin,fun h0 => hall (by omega)⟩
    · rw [watch_over D read c c' _ (.ok ()) hc (.inl ⟨rfl,rfl⟩)]
      exact ⟨List.nil_prefix,fun h0 => by omega⟩
    · cases hvs

/-! ## What a run does -/

/-- The configuration without an INI file, whose web port stays the default. -/
def CliOptions.connection (cli : CliOptions) : ConnectionConfig :=
  ⟨cli.host,cli.port,defaultWebPort,clampRate defaultPacketSendRate,none,false⟩

theorem prepare_options (cli : CliOptions) (disk : Disk) :
    prepareConnectionConfig cli.options disk = (some (if cli.port = defaultWebPort then
      .error (.portConflict cli.port) else .ok cli.connection),disk.contents) := by
  have hconclude : conclude cli.options none cli.port defaultWebPort
      (clampRate defaultPacketSendRate) false = if cli.port = defaultWebPort then
        .error (.portConflict cli.port) else .ok cli.connection := by
    unfold conclude
    by_cases hp : cli.port = defaultWebPort
    · rw [if_pos ⟨by decide,hp.symm⟩, if_pos hp]
    · rw [if_neg (fun h => hp h.2.symm), if_neg hp]
      rfl
  rw [← hconclude]
  rfl

theorem connect_options (cli : CliOptions) (a : Attempt) (file : Option Text) :
    connect cli.options a file = (some (if cli.port = defaultWebPort then
      .error (.portConflict cli.port) else connectSocket cli.connection a.peer),file) := by
  rw [connect, prepare_options]
  by_cases hp : cli.port = defaultWebPort
  · rw [if_pos hp, if_pos hp]
  · rw [if_neg hp, if_neg hp]

theorem run_unconnected (cli : CliOptions) (clock : Clock) (a : Attempt)
    (h : cli.port = defaultWebPort ∨ a.peer = none) :
    (run print D read cli clock a).socket = none ∧ (run print D read cli clock a).echoed = [] ∧
      (run print D read cli clock a).result = some (.error
        (if cli.port = defaultWebPort then .portConflict cli.port else .socketIo)) := by
  rw [run, connect_options]
  by_cases hp : cli.port = defaultWebPort
  · rw [if_pos hp, if_pos hp]
    exact ⟨rfl,rfl,rfl⟩
  · have hn : a.peer = none := h.resolve_left hp
    rw [if_neg hp, if_neg hp, hn]
    exact ⟨rfl,rfl,rfl⟩

theorem run_refused (cli : CliOptions) (clock : Clock) (a : Attempt) (peer : Peer) (k : ℕ)
    (writes : List (Option ℕ)) (hv : cli.command.validate = .ok ())
    (hp : cli.port ≠ defaultWebPort) (ha : a.peer = some peer) (hw : peer.writes = some k::writes) :
    run print D read cli clock a = ⟨some (.error .socketIo),
      some ⟨cli.connection,.connect peer.reader,writes,(textOf print cli.command).take k⟩,[]⟩ := by
  have ht := toValue_ok cli.command hv
  rw [run, connect_options, if_neg hp, ha]
  simp only [connectSocket, ht, RlClient.sendCommand, RlClient.writeAll, RlClient.over, hw, textOf,
    List.nil_append]

theorem run_sent (cli : CliOptions) (clock : Clock) (a : Attempt) (peer : Peer)
    (hv : cli.command.validate = .ok ()) (hp : cli.port ≠ defaultWebPort)
    (ha : a.peer = some peer) (hw : ∀ k writes, peer.writes ≠ some k::writes) :
    ∃ socket, run print D read cli clock a =
        (match clock.plus cli.watchSeconds with
        | none => ⟨none,some socket,[]⟩
        | some _ => ⟨some (watch D read (.connect peer.reader)).2,some socket,
            (watch D read (.connect peer.reader)).1⟩) ∧
      socket.connection = cli.connection ∧ socket.written = textOf print cli.command := by
  have ht := toValue_ok cli.command hv
  rw [run, connect_options, if_neg hp, ha]
  simp only [connectSocket, ht, RlClient.sendCommand, RlClient.writeAll, RlClient.over, textOf,
    List.nil_append]
  rcases hwrites : peer.writes with _ | ⟨_ | k,writes⟩
  · exact ⟨_,rfl,rfl,rfl⟩
  · exact ⟨_,rfl,rfl,rfl⟩
  · exact absurd hwrites (hw k writes)

end Run

def pauseCli : CliOptions := ⟨"127.0.0.1",49123,3,.setMatchPaused true⟩

/-- A game that sends one event of an unknown name. -/
def plainGame : Attempt := ⟨{contents := none},some ⟨plainAgain.reader,[]⟩⟩

theorem pauseLine_read :
    parseArgs readPause (fun _ => "") ["--watch","3",pauseText] = .ok (some pauseCli) := rfl

/-- A day after the start of a clock whose seconds are signed. -/
def dayClock : Clock := ⟨86400,2^63-1⟩

/-- The longest time that a line can give panics. -/
example : (run printPause objects readPause {pauseCli with watchSeconds := 2^64-1} dayClock
    plainGame).result = none := rfl

end RlStatsApi.RlCommand
