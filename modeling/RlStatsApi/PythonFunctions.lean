import RlStatsApi.ClientTraffic
import RlStatsApi.EventPipe

/-!
# The functions of the bindings

They take the text of an event. The text that the bindings write for an event
stands for it in all of them. A caller who filters the texts of a connection
gets what the connection filters for itself.
-/

set_option autoImplicit false

namespace RlStatsApi.PythonFunctions
open RlStatsApi.TextLines (Text trim)
open RlStatsApi.JsonValue RlStatsApi.SerdeCodec RlStatsApi.Error RlStatsApi.EventData
open RlStatsApi.EventParsing RlStatsApi.EventRoundTrip RlStatsApi.EventFilters RlStatsApi.KindTokens
open RlStatsApi.StreamFraming RlStatsApi.StreamRuns RlStatsApi.FilteredClient
open RlStatsApi.PythonClient RlStatsApi.ClientTraffic RlStatsApi.TextReader
open RlStatsApi.EventPipe (valueOf statsEventToValue_eq Parsed Settled text_parsed_settled
  value_parsed_settled Legible line_reparsed plainLine readPlain printPlain plainEvent
  plain_legible)
open RlStatsApi.RelayLoop (emptyText emptyValue plainText plainValue)

/-! ## Signals -/

inductive MatchSignal where
  | goalScored (data : GoalScoredData)
  | matchConcluded (data : MatchEndedData)

def toMatchSignal : StatsEvent → Option MatchSignal
  | .goalScored data => some (.goalScored data)
  | .matchEnded data => some (.matchConcluded data)
  | _ => none

def winnerTeamNum : StatsEvent → Option I64
  | .matchEnded data => some data.winnerTeamNum
  | _ => none

def signalValue : MatchSignal → Value
  | .goalScored data =>
    .object [("data",GoalScoredData.codec.ser data),("signal",.string "goal_scored")]
  | .matchConcluded data =>
    .object [("data",MatchEndedData.codec.ser data),("signal",.string "match_concluded")]

/-! ## The functions -/

section Functions

variable (read : Reader) (print : Value → String)

def parsed (raw : String) : Except PyErr StatsEvent :=
  match parseStatsEvent read raw with
  | .ok event => .ok event
  | .error e => .error (.value e)

def filterOf (args : FilterArguments) : Except PyErr EventFilter :=
  match buildFilter args.eventTypes args.playerName args.playerPrimaryId args.teamNum
      args.matchGuid with
  | .ok filter => .ok filter
  | .error message => .error (.valueText message)

def written (event : StatsEvent) : Except PyErr String :=
  match statsEventToValue event with
  | .ok value => .ok (print value)
  | .error e => .error (.value e)

def parseEventJson (raw : String) : Except PyErr String :=
  match EventRoundTrip.parseEventJson read print raw with
  | .ok text => .ok text
  | .error e => .error (.value e)

def eventName (raw : String) : Except PyErr String := (parsed read raw).map statsEventName

def eventMatches (raw : String) (args : FilterArguments) : Except PyErr Bool :=
  (parsed read raw).bind (fun event => (filterOf args).map (fun filter => filter.matches event))

def filterEventJson (raw : String) (args : FilterArguments) : Answer :=
  (parsed read raw).bind (fun event => (filterOf args).bind (fun filter =>
    if filter.matches event = true then (written print event).map some else .ok none))

def winnerTeam (raw : String) : Except PyErr (Option I64) := (parsed read raw).map winnerTeamNum

def matchSignalJson (raw : String) : Except PyErr (Option String) :=
  (parsed read raw).map (fun event => (toMatchSignal event).map (fun s => print (signalValue s)))

/-! ## Texts that are written again -/

/-- All functions answer alike on two texts. -/
structure Alike (raw text : String) : Prop where
  parse : parseEventJson read print text = parseEventJson read print raw
  name : eventName read text = eventName read raw
  kinds : ∀ args, eventMatches read text args = eventMatches read raw args
  filter : ∀ args, filterEventJson read print text args = filterEventJson read print raw args
  winner : winnerTeam read text = winnerTeam read raw
  signal : matchSignalJson read print text = matchSignalJson read print raw

theorem parseEventJson_eq (raw : String) :
    parseEventJson read print raw = (parsed read raw).bind (written print) := by
  rw [parseEventJson, EventRoundTrip.parseEventJson, parsed]
  cases parseStatsEvent read raw with
  | error e => rfl
  | ok event =>
    change _ = written print event
    rw [written]
    simp only [Bind.bind, Except.bind, statsEventToValue_eq]
    rfl

theorem alike_of_parsed (raw text : String) (h : parsed read text = parsed read raw) :
    Alike read print raw text := by
  constructor
  · rw [parseEventJson_eq, parseEventJson_eq, h]
  · rw [eventName, eventName, h]
  · intro args
    rw [eventMatches, eventMatches, h]
  · intro args
    rw [filterEventJson, filterEventJson, h]
  · rw [winnerTeam, winnerTeam, h]
  · rw [matchSignalJson, matchSignalJson, h]

theorem written_eq (event : StatsEvent) : written print event = .ok (print (valueOf event)) := by
  rw [written, statsEventToValue_eq]

theorem parsed_ok (raw : String) (event : StatsEvent) (h : parsed read raw = .ok event) :
    parseStatsEvent read raw = .ok event := by
  unfold parsed at h
  split at h
  · next event' he =>
    cases h
    exact he
  · cases h

variable {read print} in
theorem written_parsed (event : StatsEvent) (hs : Settled read event)
    (hl : Legible read print event) : parsed read (print (valueOf event)) = .ok event := by
  have hline := line_reparsed read print event hs hl.2
  rw [EventPipe.lineOf, String.ofList_toList] at hline
  rw [parsed, hline]

/-- What the bindings write for the event of a text stands for the text in all
functions, and is what the filter function returns when it returns a text. -/
theorem written_text_alike (raw text : String) (h : parseEventJson read print raw = .ok text)
    (hl : ∀ event, parseStatsEvent read raw = .ok event → Legible read print event) :
    Alike read print raw text ∧ ∀ args, filterEventJson read print raw args =
      (eventMatches read raw args).map (fun matched => if matched = true then some text else none) := by
  rw [parseEventJson_eq] at h
  cases hp : parsed read raw with
  | error e =>
    rw [hp] at h
    cases h
  | ok event =>
    rw [hp] at h
    change written print event = .ok text at h
    rw [written_eq] at h
    cases h
    have hparsed := parsed_ok read raw event hp
    have hs := text_parsed_settled read raw event hparsed (hl event hparsed).1
    refine ⟨alike_of_parsed read print raw _ ((written_parsed event hs (hl event hparsed)).trans
      hp.symm),fun args => ?_⟩
    rw [filterEventJson, eventMatches, hp]
    change (filterOf args).bind _ = ((filterOf args).map _).map _
    cases filterOf args with
    | error e => rfl
    | ok filter =>
      change (if filter.matches event = true then (written print event).map some else .ok none) =
        Except.ok (if filter.matches event = true then some (print (valueOf event)) else none)
      split_ifs
      · rw [written_eq]
        rfl
      · rfl

/-! ## A caller who filters -/

variable (D : Deserializer Json) (display : Value → String)

/-- The answers of some calls of one kind, one after the other. -/
def answersOf (next : StreamClient.Client →
    StreamClient.Poll (Outcome (Option StatsEvent)) × StreamClient.Client) :
    ℕ → StreamClient.Client → List Answer
  | 0, _ => []
  | n+1, c => eventText print (next c).1::answersOf next n (next c).2

/-- A caller drops the texts for which the filter function returns nothing. -/
def callerKeeps (args : FilterArguments) : Answer → Bool
  | .ok (some text) =>
    match filterEventJson read print text args with
    | .ok none => false
    | _ => true
  | _ => true

theorem filterOf_iff (args : FilterArguments) (filter : EventFilter)
    (h : filterOf args = .ok filter) : buildFilter args.eventTypes args.playerName
      args.playerPrimaryId args.teamNum args.matchGuid = .ok filter := by
  unfold filterOf at h
  split at h
  · next filter' hf =>
    cases h
    exact hf
  · cases h

theorem run_answers (call : Call) (next : StreamClient.Client →
      StreamClient.Poll (Outcome (Option StatsEvent)) × StreamClient.Client)
    (hcall : ∀ (s : Session) a c, s.client = some c → s.call print D read display a call =
      ((nextOf print next c).1,{s with client := some (nextOf print next c).2}))
    (attempts : List Attempt) (s : Session) (c : RlClient) (hc : s.client = some c) :
    (s.run print D read display (attempts.map (fun a => (call,a)))).1 =
      answersOf print next attempts.length c.stream := by
  induction attempts generalizing s c with
  | nil => rfl
  | cons a attempts ih =>
    rw [List.map_cons, Session.run, hcall s a c hc]
    exact congrArg (_::·) (ih _ (nextOf print next c).2 rfl)

theorem run_next (attempts : List Attempt) (s : Session) (c : RlClient) (hc : s.client = some c) :
    (s.run print D read display (attempts.map (fun a => (.nextEventJson,a)))).1 =
      answersOf print (StreamClient.Client.nextEvent D read) attempts.length c.stream :=
  run_answers read print D display .nextEventJson _ (fun s a c hc => use_connected s a c hc _)
    attempts s c hc

theorem run_filtered (args : FilterArguments) (filter : EventFilter)
    (hf : filterOf args = .ok filter) (attempts : List Attempt) (s : Session) (c : RlClient)
    (hc : s.client = some c) :
    (s.run print D read display (attempts.map (fun a => (.nextFilteredEventJson args,a)))).1 =
      answersOf print (nextFilteredEvent D read filter) attempts.length c.stream := by
  refine run_answers read print D display _ _ (fun s a c hc => ?_) attempts s c hc
  have hnext : nextFilteredOf print D read args c =
      nextOf print (nextFilteredEvent D read filter) c := by
    rw [nextFilteredOf, filterOf_iff args filter hf]
  rw [← hnext]
  exact use_connected s a c hc _

theorem answersOf_reads (n : ℕ) (c : StreamClient.Client) :
    answersOf print (StreamClient.Client.nextEvent D read) n c = reads print D read n c := by
  induction n generalizing c with
  | zero => rfl
  | succ n ih => exact congrArg (_::·) (ih _)

theorem answersOf_ended (next : StreamClient.Client →
      StreamClient.Poll (Outcome (Option StatsEvent)) × StreamClient.Client)
    (n : ℕ) (c : StreamClient.Client) (x : StreamClient.Poll (Outcome (Option StatsEvent)))
    (h : next c = (x,c)) : answersOf print next n c = List.replicate n (eventText print x) := by
  induction n with
  | zero => rfl
  | succ n ih => rw [answersOf, h, ih, List.replicate_succ]

/-- No call is dropped, so each returns what is kept next, or the end. -/
theorem answersOf_filtered (filter : EventFilter) (c : StreamClient.Client) (vs : List Json)
    (e : Ending) (h : Serves D c vs e) (hd : StreamRuns.drops c.reader = 0) (n : ℕ) :
    answersOf print (nextFilteredEvent D read filter) ((keptResults read filter vs).length+n) c =
      (keptResults read filter vs).map (fun x => eventText print (.ready x))++
        List.replicate n (eventText print (.ready (final e))) := by
  generalize hm : vs.length = m
  induction m using Nat.strong_induction_on generalizing c vs with
  | _ m ih =>
    rcases nextFiltered_stream D read filter c vs e h with
      ⟨x,vs',c',hx,hc,hs,hl,hd'⟩ | ⟨vs',c',hx,hc,hs,hl,hd'⟩ | ⟨c',hx,hc,hc'⟩
    · have hrest := ih vs'.length (by omega) c' vs' hs (by omega) rfl
      rw [hx, List.length_cons, Nat.add_right_comm, answersOf, hc, hrest]
      rfl
    · omega
    · rw [hx, List.length_nil, Nat.zero_add, List.map_nil, List.nil_append]
      cases n with
      | zero => rfl
      | succ n => rw [answersOf, hc, answersOf_ended print _ n c' _ hc', List.replicate_succ]

variable {read print} in
/-- The caller keeps the answers that the filter keeps. -/
theorem callerKeeps_answer (args : FilterArguments) (filter : EventFilter)
    (hf : filterOf args = .ok filter) (v : Json)
    (hl : ∀ event, delivered read v = .ok (some event) → Legible read print event) :
    callerKeeps read print args (eventText print (.ready (delivered read v))) =
      keeps filter (delivered read v) := by
  cases hp : parseStatsEventValue read v.1 with
  | error e =>
    have hd : delivered read v = .error e := by rw [delivered, hp]; rfl
    rw [hd]
    rfl
  | ok event =>
    have hd : delivered read v = .ok (some event) := by rw [delivered, hp]; rfl
    have hlegible := hl event hd
    have hparsed := written_parsed event (value_parsed_settled read v event hp hlegible.1) hlegible
    have htext : eventText print (.ready (.ok (some event))) =
        .ok (some (print (valueOf event))) := by
      rw [eventText, statsEventToValue_eq]
    have hfilter : filterEventJson read print (print (valueOf event)) args =
        if filter.matches event = true then .ok (some (print (valueOf event))) else .ok none := by
      rw [filterEventJson, hparsed, hf]
      change (if filter.matches event = true then (written print event).map some else .ok none) = _
      rw [written_eq]
      rfl
    rw [hd, htext, callerKeeps, hfilter, keeps]
    cases filter.matches event <;> rfl

/-- The plain calls answer with the values of the stream, one after the other. -/
theorem plain_answers (s : Session) (c : RlClient) (hc : s.client = some c)
    (vs : List Json) (e : Ending) (h : Serves D c.stream vs e)
    (hd : StreamRuns.drops c.stream.reader = 0) (plain : List Attempt)
    (hplain : plain.length = vs.length) :
    (s.run print D read display (plain.map (fun a => (.nextEventJson,a)))).1 =
      vs.map (fun v => eventText print (.ready (delivered read v))) := by
  rw [run_next read print D display plain s c hc, answersOf_reads, hplain,
    reads_stream print D read _ _ vs e h hd, outcomes, List.take_left' (List.length_map ..),
    List.map_map]
  rfl

/-- On a connection whose peer sends a framed stream, the filtered calls return
what is left of the answers to the plain calls when the caller drops those for
which the filter function returns nothing, and then the stream's end. -/
theorem caller_filters (args : FilterArguments) (filter : EventFilter)
    (hf : filterOf args = .ok filter) (s : Session) (c : RlClient) (hc : s.client = some c)
    (vs : List Json) (e : Ending) (h : Serves D c.stream vs e)
    (hd : StreamRuns.drops c.stream.reader = 0)
    (hl : ∀ v ∈ vs, ∀ event, delivered read v = .ok (some event) → Legible read print event)
    (plain : List Attempt) (hplain : plain.length = vs.length) :
    ∃ k ≤ vs.length, ∀ attempts : List Attempt, k ≤ attempts.length →
      (s.run print D read display
        (attempts.map (fun a => (.nextFilteredEventJson args,a)))).1 =
      ((s.run print D read display (plain.map (fun a => (.nextEventJson,a)))).1.filter
        (callerKeeps read print args))++
      List.replicate (attempts.length-k) (eventText print (.ready (final e))) := by
  have hall := plain_answers read print D display s c hc vs e h hd plain hplain
  have hkept : ((s.run print D read display (plain.map (fun a => (.nextEventJson,a)))).1.filter
      (callerKeeps read print args)) =
        (keptResults read filter vs).map (fun x => eventText print (.ready x)) := by
    rw [hall, keptResults, List.filter_map, List.filter_map, List.map_map]
    congr 1
    apply List.filter_congr
    intro v hv
    exact callerKeeps_answer args filter hf v (hl v hv)
  refine ⟨(keptResults read filter vs).length,?_,fun attempts hk => ?_⟩
  · rw [keptResults]
    exact (List.length_filter_le _ _).trans (List.length_map ..).le
  · obtain ⟨n,hn⟩ := Nat.exists_eq_add_of_le hk
    rw [hkept, run_filtered read print D display args filter hf attempts s c hc, hn,
      answersOf_filtered read print D filter c.stream vs e h hd n, Nat.add_sub_cancel_left]

end Functions

/-- A reader that allows blanks around its one text. -/
def readSpaced : Reader := .ofValues fun text =>
  readPlain (String.ofList (trim text.toList))

theorem readSpaced_legible : Legible readSpaced printPlain plainEvent :=
  ⟨plain_legible.1,rfl⟩

theorem spaced_text_alike : Alike readSpaced printPlain (String.ofList (' '::plainLine))
    (String.ofList plainLine) := by
  refine (written_text_alike readSpaced printPlain _ _ rfl (fun event h => ?_)).1
  have hp : parseStatsEvent readSpaced (String.ofList (' '::plainLine)) = .ok plainEvent := rfl
  rw [hp] at h
  cases h
  exact readSpaced_legible

/-! ### Four values and a filter for one kind -/

def roundLine : Text :=
  "\x7b\"data\":\x7b\"MatchGuid\":null\x7d,\"event\":\"RoundStarted\"\x7d".toList

def printMixed : Value → String
  | .object [("data",.object _),_] => String.ofList roundLine
  | _ => String.ofList plainLine

/-- A reader of two texts. -/
def readMixed : Reader := .ofValues fun text =>
  if text.toList = roundLine then .ok (valueOf roundEvent) else readPlain text

theorem plain_mixed_legible : Legible readMixed printMixed plainEvent :=
  ⟨plain_legible.1,rfl⟩

theorem round_mixed_legible : Legible readMixed printMixed roundEvent :=
  ⟨nofun,rfl⟩

def mixedReads : List StreamClient.Read :=
  [.chunk 123 plainText.tail,.chunk 123 (roundText.tail++emptyText++plainText)]

def mixedSession : Session :=
  {plainSession with client := some ⟨⟨"127.0.0.1",49123,49124,ClientConfig.defaultPacketSendRate,
    none,false⟩,.connect mixedReads,[],[]⟩}

def mixedCalls : List Attempt := [quietGame,quietGame,quietGame,quietGame]

def roundArguments : FilterArguments := {eventTypes := some ["round_started"]}

theorem mixed_legible (v : Json) (hv : v ∈ [plainValue,roundValue,emptyValue,plainValue])
    (event : StatsEvent) (h : delivered readMixed v = .ok (some event)) :
    Legible readMixed printMixed event := by
  have hplain : delivered readMixed plainValue = .ok (some plainEvent) := rfl
  have hround : delivered readMixed roundValue = .ok (some roundEvent) := rfl
  have hempty : delivered readMixed emptyValue = .error (.json .data) := rfl
  simp only [List.mem_cons, List.not_mem_nil, or_false] at hv
  rcases hv with rfl | rfl | rfl | rfl
  · cases hplain.symm.trans h
    exact plain_mixed_legible
  · cases hround.symm.trans h
    exact round_mixed_legible
  · cases hempty.symm.trans h
  · cases hplain.symm.trans h
    exact plain_mixed_legible

/-- The filter keeps one event and the error of the value that is none. -/
theorem rounds_caller_filters : ∃ k ≤ 4, ∀ attempts : List Attempt, k ≤ attempts.length →
    (mixedSession.run printMixed mixed readMixed (fun _ => "")
      (attempts.map (fun a => (.nextFilteredEventJson roundArguments,a)))).1 =
    [.ok (some (String.ofList roundLine)),.error (.runtime (.json .data))]++
      List.replicate (attempts.length-k) (.ok none) := by
  have hserves : Serves mixed (.connect mixedReads)
      [plainValue,roundValue,emptyValue,plainValue] .closed :=
    { quiet := by simp [mixedReads, StreamClient.Client.connect]
      stream := mixed_stream }
  have hkept : ((mixedSession.run printMixed mixed readMixed (fun _ => "")
      (mixedCalls.map (fun a => (.nextEventJson,a)))).1.filter
        (callerKeeps readMixed printMixed roundArguments)) =
      [.ok (some (String.ofList roundLine)),.error (.runtime (.json .data))] := by
    rw [plain_answers readMixed printMixed mixed (fun _ => "") mixedSession _ rfl _ .closed hserves
      rfl mixedCalls rfl]
    rfl
  rw [← hkept]
  exact caller_filters readMixed printMixed mixed (fun _ => "") roundArguments
    (EventFilter.new.includeKind .roundStarted) rfl mixedSession _ rfl _ .closed hserves rfl
    mixed_legible mixedCalls rfl

end RlStatsApi.PythonFunctions
