import RlStatsApi.FilteredClient
import RlStatsApi.KindTokens
import RlStatsApi.RepeatedCalls
import RlStatsApi.StatsCommands

/-!
# The client of the bindings

It connects at its first use and after each close, always with the options it
was made with. A call is a few steps, each of which can open a connection, use
the current one or give it up.
-/

set_option autoImplicit false

namespace RlStatsApi.PythonClient
open RlStatsApi.TextLines RlStatsApi.JsonValue RlStatsApi.Error RlStatsApi.EventParsing
open RlStatsApi.EventFilters RlStatsApi.KindTokens RlStatsApi.StreamFraming RlStatsApi.StreamClient
open RlStatsApi.StreamRuns RlStatsApi.FilteredClient RlStatsApi.IniText RlStatsApi.ClientConfig
open RlStatsApi.ReturningCalls RlStatsApi.RepeatedCalls RlStatsApi.StatsCommands
open RlStatsApi.TextReader
open RlStatsApi.ConfigPolicy (someIni zeroRate)

/-! ## Connections -/

/-- The other end: what it sends, and which of the writes to it fail, after
how many bytes. -/
structure Peer where
  reader : List Read
  writes : List (Option ℕ)

/-- A connection and the bytes that were written to it. -/
structure RlClient where
  connection : ConnectionConfig
  stream : Client
  writes : List (Option ℕ)
  written : Bytes

def hostAndPort (host : String) (port : U16) : Text := host.toList++ ':'::Nat.toDigits 10 port.val

def socketAddress (connection : ConnectionConfig) : Text :=
  hostAndPort connection.host connection.port

def RlClient.over (connection : ConnectionConfig) (peer : Peer) : RlClient :=
  ⟨connection,.connect peer.reader,peer.writes,[]⟩

def connectSocket (connection : ConnectionConfig) : Option Peer → Outcome RlClient
  | none => .error .socketIo
  | some peer => .ok (.over connection peer)

/-- Every byte, or a failure of the write or of the flush after it. -/
def RlClient.writeAll (text : Bytes) (c : RlClient) : Outcome Unit × RlClient :=
  match c.writes with
  | some k::writes =>
    (.error .socketIo,{c with writes := writes, written := c.written++text.take k})
  | none::writes => (.ok (),{c with writes := writes, written := c.written++text})
  | [] => (.ok (),{c with written := c.written++text})

section Calls

variable (print : Value → String)

def asBytes (text : String) : Bytes := text.toUTF8.data.toList

def RlClient.sendCommand (command : StatsCommand) (c : RlClient) : Outcome Unit × RlClient :=
  match command.toValue with
  | .error e => (.error e,c)
  | .ok value => c.writeAll (asBytes (print value))

/-! ## Calls -/

/-- The exceptions: `ended` stands for the end of the process in a wait. -/
inductive PyErr where
  | runtime (e : RlStatsError)
  | value (e : RlStatsError)
  | valueText (message : String)
  | notConnected
  | panic
  | ended

abbrev Answer := Except PyErr (Option String)

/-- What a call that connects would meet. -/
structure Attempt where
  disk : Disk
  peer : Option Peer

structure FilterArguments where
  eventTypes : Option (List String) := none
  playerName : Option String := none
  playerPrimaryId : Option String := none
  teamNum : Option I64 := none
  matchGuid : Option String := none

inductive Call where
  | connect
  | reconnect
  | sendCommandJson (raw : String)
  | nextEventJson
  | nextFilteredEventJson (arguments : FilterArguments)
  | close (fails : Bool)

/-- The object, the connections it gave up, and the INI file. -/
structure Session where
  options : ClientOptions
  client : Option RlClient
  closed : List RlClient
  file : Option Text

/-- The options that the constructor makes. -/
def Session.new (host : String) (port : U16) (iniPath : Option IniPath)
    (autoEnablePacketRate : Bool) (packetSendRate : F32) (setPacketRateOnlyWhenZero : Bool)
    (file : Option Text) : Session :=
  ⟨⟨host,some port,iniPath,autoEnablePacketRate,packetSendRate,setPacketRateOnlyWhenZero⟩,
    none,[],file⟩

def Session.socketAddress (s : Session) : Text :=
  hostAndPort s.options.host (s.options.portOverride.getD 49123)

def Session.connect (a : Attempt) (s : Session) : Except PyErr Unit × Session :=
  match prepareConnectionConfig s.options {a.disk with contents := s.file} with
  | (none,left) => (.error .panic,{s with file := left})
  | (some (.error e),left) => (.error (.runtime e),{s with file := left})
  | (some (.ok connection),left) =>
    match connectSocket connection a.peer with
    | .error e => (.error (.runtime e),{s with file := left})
    | .ok client =>
      (.ok (),{s with client := some client, closed := s.closed++s.client.toList, file := left})

def Session.ensureConnected (a : Attempt) (s : Session) : Except PyErr Unit × Session :=
  if s.client.isNone = true then s.connect a else (.ok (),s)

/-- A call that needs a connection. -/
def Session.use (a : Attempt) (f : RlClient → Answer × RlClient) (s : Session) :
    Answer × Session :=
  match s.ensureConnected a with
  | (.error e,s) => (.error e,s)
  | (.ok (),s) =>
    match s.client with
    | none => (.error .notConnected,s)
    | some c => ((f c).1,{s with client := some (f c).2})

def Session.reconnect (a : Attempt) (s : Session) : Except PyErr Unit × Session :=
  match s.client with
  | none => s.connect a
  | some c =>
    match connectSocket c.connection a.peer with
    | .error e => (.error (.runtime e),s)
    | .ok client => (.ok (),{s with client := some client, closed := s.closed++[c]})

variable (D : Deserializer Json) (read : Reader)
variable (display : Value → String)

/-- The text of the event. -/
def eventText : Poll (Outcome (Option StatsEvent)) → Answer
  | .dropped => .error .ended
  | .ready (.error e) => .error (.runtime e)
  | .ready (.ok none) => .ok none
  | .ready (.ok (some event)) =>
    match statsEventToValue event with
    | .ok value => .ok (some (print value))
    | .error e => .error (.runtime e)

def nextOf (next : Client → Poll (Outcome (Option StatsEvent)) × Client) (c : RlClient) :
    Answer × RlClient :=
  (eventText print (next c.stream).1,{c with stream := (next c.stream).2})

/-- The command of a text, before anything is opened. -/
def commandOf (raw : String) : Outcome StatsCommand :=
  match fromStr read raw with
  | .error e => .error e
  | .ok value => StatsCommand.fromValue display value

def sendOf (command : StatsCommand) (c : RlClient) : Answer × RlClient :=
  match c.sendCommand print command with
  | (.ok (),c) => (.ok none,c)
  | (.error e,c) => (.error (.runtime e),c)

/-- The filter is built once there is a connection. -/
def nextFilteredOf (args : FilterArguments) (c : RlClient) : Answer × RlClient :=
  match buildFilter args.eventTypes args.playerName args.playerPrimaryId args.teamNum
      args.matchGuid with
  | .error message => (.error (.valueText message),c)
  | .ok filter => nextOf print (nextFilteredEvent D read filter) c

def returned (r : Except PyErr Unit × Session) : Answer × Session := (r.1.map (fun _ => none),r.2)

def Session.call (s : Session) (a : Attempt) : Call → Answer × Session
  | .connect => returned (s.connect a)
  | .reconnect => returned (s.reconnect a)
  | .sendCommandJson raw =>
    match commandOf read display raw with
    | .error e => (.error (.value e),s)
    | .ok command => s.use a (sendOf print command)
  | .nextEventJson => s.use a (nextOf print (Client.nextEvent D read))
  | .nextFilteredEventJson args => s.use a (nextFilteredOf print D read args)
  | .close fails =>
    match s.client with
    | none => (.ok none,s)
    | some c =>
      (if fails = true then .error (.runtime .socketIo) else .ok none,
        {s with client := none, closed := s.closed++[c]})

def Session.run : List (Call × Attempt) → Session → List Answer × Session
  | [], s => ([],s)
  | (call,a)::calls, s =>
    let r := s.call print D read display a call
    let rest := Session.run calls r.2
    (r.1::rest.1,rest.2)

end Calls

/-! ## What a call can do -/

/-- All connections, the current one last. -/
def Session.sockets (s : Session) : List RlClient := s.closed++s.client.toList

def Session.written (s : Session) : Bytes := s.sockets.flatMap RlClient.written

/-- A step, and the bytes that it adds to the current connection; what it
meets is in `P`. -/
inductive Act (P : Attempt → Prop) (s : Session) : Session → Bytes → Prop
  | prepared (a : Attempt) (result : Option (Outcome ConnectionConfig)) (left : Option Text)
      (ha : P a)
      (h : prepareConnectionConfig s.options {a.disk with contents := s.file} = (result,left)) :
      Act P s {s with file := left} []
  | opened (a : Attempt) (connection : ConnectionConfig) (left : Option Text) (peer : Peer)
      (ha : P a) (hp : a.peer = some peer)
      (h : prepareConnectionConfig s.options {a.disk with contents := s.file} =
        (some (.ok connection),left)) :
      Act P s {s with client := some (.over connection peer), closed := s.sockets, file := left} []
  | reopened (a : Attempt) (c : RlClient) (peer : Peer) (ha : P a) (hp : a.peer = some peer)
      (hc : s.client = some c) :
      Act P s {s with client := some (.over c.connection peer), closed := s.sockets} []
  | used (c c' : RlClient) (part : Bytes) (hc : s.client = some c)
      (hconn : c'.connection = c.connection) (hw : c'.written = c.written++part)
      (hi : c.writes = [] → c'.writes = []) : Act P s {s with client := some c'} part
  | closed (hc : s.client.isSome = true) : Act P s {s with client := none, closed := s.sockets} []

inductive Acts (P : Attempt → Prop) : Session → Session → Bytes → Prop
  | done (s : Session) : Acts P s s []
  | act (s m e : Session) (part rest : Bytes) (h : Act P s m part) (hr : Acts P m e rest) :
      Acts P s e (part++rest)

section Steps

variable {P : Attempt → Prop}

theorem acts_one {s e : Session} {part : Bytes} (h : Act P s e part) : Acts P s e part := by
  have hd := Acts.act s e e part [] h (.done e)
  rwa [List.append_nil] at hd

theorem acts_append {s m e : Session} {part rest : Bytes} (h : Acts P s m part)
    (hr : Acts P m e rest) : Acts P s e (part++rest) := by
  induction h with
  | done s => exact hr
  | act s m' m p q ha _ ih =>
    rw [List.append_assoc]
    exact .act s m' e p _ ha (ih hr)

/-- What every step keeps holds after all of them. -/
theorem acts_keep (Q : Session → Prop) (hstep : ∀ s e part, Act P s e part → Q s → Q e)
    {s e : Session} {part : Bytes} (h : Acts P s e part) (hs : Q s) : Q e := by
  induction h with
  | done s => exact hs
  | act s m e p q ha _ ih => exact ih (hstep s m p ha hs)

theorem act_written {s e : Session} {part : Bytes} (h : Act P s e part) :
    e.written = s.written++part := by
  cases h with
  | prepared => simp [Session.written, Session.sockets]
  | opened => simp [Session.written, Session.sockets, RlClient.over]
  | reopened => simp [Session.written, Session.sockets, RlClient.over]
  | used c c' _ hc _ hw => simp [Session.written, Session.sockets, hc, hw]
  | closed => simp [Session.written, Session.sockets]

theorem acts_written {s e : Session} {part : Bytes} (h : Acts P s e part) :
    e.written = s.written++part := by
  induction h with
  | done s => rw [List.append_nil]
  | act s m e p q ha _ ih => rw [ih, act_written ha, List.append_assoc]

/-- No write to the current connection will fail. -/
def Intact (s : Session) : Prop := ∀ c, s.client = some c → c.writes = []

def Attempt.Mild (a : Attempt) : Prop := ∀ peer, a.peer = some peer → peer.writes = []

theorem acts_intact (hP : ∀ a, P a → a.Mild) {s e : Session} {part : Bytes} (h : Acts P s e part)
    (hs : Intact s) : Intact e := by
  apply acts_keep Intact ?_ h hs
  intro s e part h hs c hc
  cases h with
  | prepared => exact hs c hc
  | opened a connection left peer ha hp =>
    cases hc
    exact hP a ha peer hp
  | reopened a c' peer ha hp =>
    cases hc
    exact hP a ha peer hp
  | used c₀ c' part hc₀ _ _ hi =>
    cases hc
    exact hi (hs c₀ hc₀)
  | closed => cases hc

variable (s : Session) (a : Attempt) (ha : P a)
include ha

theorem connect_acts : Acts P s (s.connect a).2 [] := by
  unfold Session.connect
  rcases h : prepareConnectionConfig s.options {a.disk with contents := s.file} with ⟨result,left⟩
  cases result with
  | none => exact acts_one (.prepared a _ left ha h)
  | some outcome =>
    cases outcome with
    | error e => exact acts_one (.prepared a _ left ha h)
    | ok connection =>
      cases hp : a.peer with
      | none => exact acts_one (.prepared a _ left ha h)
      | some peer => exact acts_one (.opened a connection left peer ha hp h)

theorem ensureConnected_acts : Acts P s (s.ensureConnected a).2 [] := by
  unfold Session.ensureConnected
  split
  · exact connect_acts s a ha
  · exact .done s

omit ha in
theorem sockets_some {s : Session} {c : RlClient} (hc : s.client = some c) :
    s.sockets = s.closed++[c] := by
  rw [Session.sockets, hc]
  rfl

theorem reconnect_acts : Acts P s (s.reconnect a).2 [] := by
  unfold Session.reconnect
  cases hc : s.client with
  | none => exact connect_acts s a ha
  | some c =>
    cases hp : a.peer with
    | none => exact .done s
    | some peer =>
      have h := acts_one (.reopened a c peer ha hp hc)
      rw [sockets_some hc] at h
      exact h

omit ha in
/-- The connection stays, and what is written stands to the answer as `R` says. -/
def Uses (f : RlClient → Answer × RlClient) (R : Answer → Bytes → Prop) : Prop :=
  ∀ c, (f c).2.connection = c.connection ∧ (c.writes = [] → (f c).2.writes = []) ∧
    ∃ part, (f c).2.written = c.written++part ∧ R (f c).1 part

/-- The call fails to connect, or it works on a connection. -/
theorem use_cases (f : RlClient → Answer × RlClient) :
    (∃ e m, Acts P s m [] ∧ s.use a f = (.error e,m)) ∨
    ∃ m c, Acts P s m [] ∧ m.client = some c ∧
      s.use a f = ((f c).1,{m with client := some (f c).2}) := by
  have hconn := ensureConnected_acts s a ha
  unfold Session.use
  rcases hr : s.ensureConnected a with ⟨r,m⟩
  rw [hr] at hconn
  cases r with
  | error e => exact .inl ⟨e,m,hconn,rfl⟩
  | ok u =>
    cases hc : m.client with
    | none => exact .inl ⟨.notConnected,m,hconn,by simp only [hc]⟩
    | some c => exact .inr ⟨m,c,hconn,hc,by simp only [hc]⟩

theorem use_acts (f : RlClient → Answer × RlClient) (R : Answer → Bytes → Prop) (hf : Uses f R)
    (he : ∀ e, R (.error e) []) :
    ∃ part, Acts P s (s.use a f).2 part ∧ R (s.use a f).1 part := by
  rcases use_cases s a ha f with ⟨e,m,hacts,h⟩ | ⟨m,c,hacts,hc,h⟩
  · rw [h]
    exact ⟨[],hacts,he e⟩
  · obtain ⟨hk,hi,part,hw,hR⟩ := hf c
    have huse := acts_append hacts (acts_one (.used c (f c).2 part hc hk hw hi))
    rw [h]
    exact ⟨part,huse,hR⟩

end Steps

section Answers

variable (print : Value → String) (D : Deserializer Json)
variable (read : Reader) (display : Value → String)

/-- How much of the text was written, by the answer. -/
def Sent (text : Bytes) (answer : Answer) (part : Bytes) : Prop :=
  answer = .ok none ∧ part = text ∨ (∃ e, answer = .error e) ∧ part <+: text

/-- Nothing is written, whatever the answer. -/
def Unwritten (_ : Answer) (part : Bytes) : Prop := part = []

theorem nextOf_uses (next : Client → Poll (Outcome (Option StatsEvent)) × Client) :
    Uses (nextOf print next) Unwritten :=
  fun _ => ⟨rfl,id,[],(List.append_nil _).symm,rfl⟩

theorem nextFilteredOf_uses (args : FilterArguments) :
    Uses (nextFilteredOf print D read args) Unwritten := by
  intro c
  unfold nextFilteredOf
  split
  · exact ⟨rfl,id,[],(List.append_nil _).symm,rfl⟩
  · exact nextOf_uses print _ c

theorem sendOf_uses (command : StatsCommand) (value : Value) (hv : command.toValue = .ok value) :
    Uses (sendOf print command) (Sent (asBytes (print value))) := by
  intro c
  unfold sendOf RlClient.sendCommand RlClient.writeAll
  simp only [hv]
  cases hw : c.writes with
  | nil => exact ⟨rfl,fun _ => rfl,_,rfl,.inl ⟨rfl,rfl⟩⟩
  | cons w writes =>
    have hno (Q : Prop) (h : w::writes = []) : Q := absurd h (List.cons_ne_nil w writes)
    cases w with
    | none => exact ⟨rfl,hno _,_,rfl,.inl ⟨rfl,rfl⟩⟩
    | some k => exact ⟨rfl,hno _,_,rfl,.inr ⟨⟨_,rfl⟩,List.take_prefix _ _⟩⟩

theorem commandOf_valid (raw : String) (command : StatsCommand)
    (h : commandOf read display raw = .ok command) :
    command.validate = .ok () ∧ ∃ value, command.toValue = .ok value := by
  have hv : command.validate = .ok () := by
    unfold commandOf at h
    split at h
    · cases h
    · next value _ => exact (fromValue_ok display value command h).2
  exact ⟨hv,_,toValue_ok command hv⟩

/-- What a call writes: for a send the text of its accepted command, whole
unless an exception is raised, and nothing for any other call. -/
def Writes (answer : Answer) (part : Bytes) : Call → Prop
  | .sendCommandJson raw =>
    match commandOf read display raw with
    | .error e => answer = .error (.value e) ∧ part = []
    | .ok command => ∃ value, command.toValue = .ok value ∧
        Sent (asBytes (print value)) answer part
  | _ => part = []

/-- The step lemma. -/
theorem call_acts {P : Attempt → Prop} (s : Session) (a : Attempt) (ha : P a) (call : Call) :
    ∃ part, Acts P s (s.call print D read display a call).2 part ∧
      Writes print read display (s.call print D read display a call).1 part call := by
  cases call with
  | connect => exact ⟨[],connect_acts s a ha,rfl⟩
  | reconnect => exact ⟨[],reconnect_acts s a ha,rfl⟩
  | sendCommandJson raw =>
    simp only [Session.call, Writes]
    cases hc : commandOf read display raw with
    | error e => exact ⟨[],.done s,rfl,rfl⟩
    | ok command =>
      obtain ⟨_,value,hv⟩ := commandOf_valid read display raw command hc
      obtain ⟨part,hacts,hsent⟩ := use_acts s a ha _ _ (sendOf_uses print command value hv)
        (fun e => .inr ⟨⟨e,rfl⟩,List.nil_prefix⟩)
      exact ⟨part,hacts,value,hv,hsent⟩
  | nextEventJson =>
    exact use_acts s a ha _ _ (nextOf_uses print (Client.nextEvent D read)) (fun _ => rfl)
  | nextFilteredEventJson args =>
    exact use_acts s a ha _ _ (nextFilteredOf_uses print D read args) (fun _ => rfl)
  | close fails =>
    simp only [Session.call, Writes]
    cases hc : s.client with
    | none => exact ⟨[],.done s,rfl⟩
    | some c =>
      have h := acts_one (P := P) (.closed (s := s) (by rw [hc]; rfl))
      rw [sockets_some hc] at h
      exact ⟨[],h,rfl⟩

/-- The run lemma. -/
theorem run_acts {P : Attempt → Prop} (calls : List (Call × Attempt))
    (h : ∀ x ∈ calls, P x.2) (s : Session) :
    ∃ parts, Acts P s (s.run print D read display calls).2 parts.flatten ∧
      List.Forall₂ (fun x part => Writes print read display x.1 part x.2.1)
        ((s.run print D read display calls).1.zip calls) parts := by
  induction calls generalizing s with
  | nil => exact ⟨[],.done s,.nil⟩
  | cons x calls ih =>
    obtain ⟨call,a⟩ := x
    have ha := h (call,a) (List.mem_cons_self ..)
    obtain ⟨part,hacts,hw⟩ := call_acts print D read display s a ha call
    obtain ⟨parts,hrest,hws⟩ := ih (fun y hy => h y (List.mem_cons_of_mem _ hy))
      (s.call print D read display a call).2
    exact ⟨part::parts,acts_append hacts hrest,.cons hw hws⟩

/-! ## Where the connections go -/

theorem conclude_ok (options : ClientOptions) (path : Option IniPath) (port web : U16) (rate : F32)
    (mutated : Bool) (connection : ConnectionConfig)
    (h : conclude options path port web rate mutated = .ok connection) :
    connection.host = options.host ∧ connection.port = port := by
  unfold conclude at h
  split at h
  · cases h
  · cases h
    exact ⟨rfl,rfl⟩

theorem settle_port (options : ClientOptions) (ini : Text) (settled : Settled) (port : U16)
    (hp : options.portOverride = some port) (h : settle options ini = some settled) :
    settled.port = port := by
  obtain ⟨p,hport,h⟩ := Option.bind_eq_some_iff.mp h
  obtain ⟨r,_,rfl⟩ := Option.map_eq_some_iff.mp h
  rw [settlePort, hp] at hport
  cases hport
  rfl

theorem prepare_address (options : ClientOptions) (disk : Disk) (connection : ConnectionConfig)
    (left : Option Text) (port : U16) (hp : options.portOverride = some port)
    (h : prepareConnectionConfig options disk = (some (.ok connection),left)) :
    connection.host = options.host ∧ connection.port = port := by
  unfold prepareConnectionConfig at h
  split at h
  · rw [hp] at h
    simp only [Prod.mk.injEq, Option.some.injEq] at h
    exact conclude_ok _ _ _ _ _ _ _ h.1
  · split at h
    · cases h
    · split at h
      · cases h
      · next ini _ =>
        cases hs : settle options ini with
        | none => simp [hs] at h
        | some settled =>
          simp only [hs] at h
          split at h
          · cases h
          · simp only [Prod.mk.injEq, Option.map_eq_some_iff] at h
            obtain ⟨⟨r,_,hr⟩,_⟩ := h
            have hc := conclude_ok _ _ _ _ _ _ _ hr
            rw [settle_port options ini settled port hp hs] at hc
            exact hc

section Kept

variable {P : Attempt → Prop} {s e : Session} {part : Bytes} (h : Act P s e part)
include h

theorem act_options : e.options = s.options := by
  cases h <;> rfl

theorem act_file : e.file = s.file ∨
    ∃ a, P a ∧ e.file = (prepareConnectionConfig s.options {a.disk with contents := s.file}).2 := by
  cases h with
  | prepared a result left ha hc => exact .inr ⟨a,ha,by rw [hc]⟩
  | opened a connection left peer ha _ hc => exact .inr ⟨a,ha,by rw [hc]⟩
  | reopened | used | closed => exact .inl rfl

/-- What holds of every configuration that is prepared holds of every connection. -/
theorem act_sockets (K : ConnectionConfig → Prop)
    (hopen : ∀ a connection left, P a →
      prepareConnectionConfig s.options {a.disk with contents := s.file} =
        (some (.ok connection),left) → K connection)
    (hs : ∀ c ∈ s.sockets, K c.connection) : ∀ c ∈ e.sockets, K c.connection := by
  have hadd (c : RlClient) (hc : K c.connection) : ∀ x ∈ s.sockets++[c], K x.connection := by
    intro x hx
    rcases List.mem_append.mp hx with hx | hx
    · exact hs x hx
    · rw [List.mem_singleton.mp hx]
      exact hc
  cases h with
  | prepared => exact hs
  | opened a connection left peer ha _ hc => exact hadd _ (hopen a connection left ha hc)
  | reopened a c peer _ _ hc => exact hadd _ (hs c (by rw [sockets_some hc]; simp))
  | used c c' part hc hconn =>
    intro x hx
    rcases List.mem_append.mp hx with hx | hx
    · exact hs x (List.mem_append_left _ hx)
    · rw [show x = c' by simpa using hx, hconn]
      exact hs c (by rw [sockets_some hc]; simp)
  | closed hc =>
    intro x hx
    exact hs x (by simpa [Session.sockets] using hx)

end Kept

/-- The options stay, and every connection has their address. -/
structure Addressed (options : ClientOptions) (s : Session) : Prop where
  kept : s.options = options
  address : ∀ c ∈ s.sockets, socketAddress c.connection = s.socketAddress

theorem act_addressed {P : Attempt → Prop} (options : ClientOptions) (port : U16)
    (hp : options.portOverride = some port) (s e : Session) (part : Bytes) (h : Act P s e part)
    (hs : Addressed options s) : Addressed options e := by
  have hsame : e.socketAddress = s.socketAddress := by
    rw [Session.socketAddress, act_options h]
    rfl
  refine ⟨(act_options h).trans hs.kept,?_⟩
  rw [hsame]
  refine act_sockets h (fun connection => socketAddress connection = s.socketAddress) ?_ hs.address
  intro a connection left _ hc
  rw [hs.kept] at hc
  obtain ⟨hhost,hport⟩ := prepare_address options _ connection left port hp hc
  rw [socketAddress, Session.socketAddress, hs.kept, hhost, hport, hp]
  rfl

/-- The disk answers, and nobody else writes the file. -/
def Attempt.Sound (a : Attempt) : Prop :=
  ∀ contents, {a.disk with contents := some contents} = Disk.holding contents

/-- The file is what some calls leave, and every connection is the first. -/
structure Configured (options : ClientOptions) (before : Text) (cfg : ConnectionConfig)
    (s : Session) : Prop where
  kept : s.options = options
  file : ∃ n, s.file = some (fileAfter options before n)
  same : ∀ c ∈ s.sockets, SameConnection cfg c.connection

theorem act_configured {P : Attempt → Prop} (hP : ∀ a, P a → a.Sound) (options : ClientOptions)
    (path : IniPath) (before : Text) (cfg : ConnectionConfig)
    (hp : options.statsApiIniPath = some path) (ha : AsciiLed before)
    (hc : (prepareConnectionConfig options (Disk.holding before)).1 = some (.ok cfg))
    (s e : Session) (part : Bytes) (h : Act P s e part) (hs : Configured options before cfg s) :
    Configured options before cfg e := by
  obtain ⟨n,hn⟩ := hs.file
  have hprep (a : Attempt) (hPa : P a) :
      prepareConnectionConfig s.options {a.disk with contents := s.file} =
        prepareConnectionConfig options (Disk.holding (fileAfter options before n)) := by
    rw [hs.kept, hn, hP a hPa]
  obtain ⟨hascii,cfg',hcfg,hsame⟩ := every_call_repeats options path before cfg hp ha hc n
  obtain ⟨r,after,hcall,_⟩ := prepare_completes options path _ hp hascii
  refine ⟨(act_options h).trans hs.kept,?_,?_⟩
  · rcases act_file h with hf | ⟨a,hPa,hf⟩
    · exact ⟨n,hf.trans hn⟩
    · refine ⟨n+1,?_⟩
      rw [hf, hprep a hPa, fileAfter, hcall]
      rfl
  · refine act_sockets h (SameConnection cfg) ?_ hs.same
    intro a connection left hPa hopen
    rw [hprep a hPa] at hopen
    rw [hopen] at hcfg
    cases hcfg
    exact hsame

/-- Every connection of a session goes to the address that the object shows,
whatever the disk and the peers do. With a sound INI file each of them has
the configuration of the first. -/
theorem session_connections (host : String) (port : U16) (iniPath : Option IniPath) (auto : Bool)
    (rate : F32) (onlyZero : Bool) (file : Option Text) (calls : List (Call × Attempt)) :
    (∀ c ∈ ((Session.new host port iniPath auto rate onlyZero file).run print D read display
        calls).2.sockets, socketAddress c.connection =
          (Session.new host port iniPath auto rate onlyZero file).socketAddress) ∧
    ∀ path before cfg, iniPath = some path → file = some before → AsciiLed before →
      (prepareConnectionConfig (Session.new host port iniPath auto rate onlyZero file).options
        (Disk.holding before)).1 = some (.ok cfg) → (∀ x ∈ calls, x.2.Sound) →
      ∀ c ∈ ((Session.new host port iniPath auto rate onlyZero file).run print D read display
        calls).2.sockets, SameConnection cfg c.connection := by
  generalize hs : Session.new host port iniPath auto rate onlyZero file = s
  have hport : s.options.portOverride = some port := by rw [← hs]; rfl
  have hnone : s.sockets = [] := by rw [← hs]; rfl
  constructor
  · obtain ⟨parts,hacts,_⟩ := run_acts print D read display (P := fun _ => True) calls
      (fun _ _ => trivial) s
    have hfirst : Addressed s.options s := ⟨rfl,by simp [hnone]⟩
    have hlast := acts_keep _ (act_addressed s.options port hport) hacts hfirst
    intro c hc
    rw [hlast.address c hc, Session.socketAddress, hlast.kept]
    rfl
  · intro path before cfg hpath hfile hascii hfirst hsound
    have hp : s.options.statsApiIniPath = some path := by rw [← hs]; exact hpath
    have hf : s.file = some before := by rw [← hs]; exact hfile
    obtain ⟨parts,hacts,_⟩ := run_acts print D read display (P := Attempt.Sound) calls hsound s
    have hstart : Configured s.options before cfg s := ⟨rfl,⟨0,hf⟩,by simp [hnone]⟩
    exact (acts_keep _ (act_configured (fun _ h => h) s.options path before cfg hp hascii hfirst)
      hacts hstart).same

/-- A game that sends nothing, next to an INI file that is found. -/
def foundGame : Attempt := ⟨Disk.holding [],some ⟨[],[]⟩⟩

def fileSession : Session :=
  .new "127.0.0.1" 49123 (some someIni) true defaultPacketSendRate true (some zeroRate)

def fileCalls : List (Call × Attempt) :=
  [(.connect,foundGame),(.reconnect,foundGame),(.close false,foundGame),(.nextEventJson,foundGame)]

/-- Three connections, before the first of which the rate was written. -/
theorem zero_rate_connections : ∃ sockets,
    (fileSession.run (fun _ => "") (ofTexts []) noText (fun _ => "") fileCalls).2.sockets =
      sockets ∧
      (∀ c ∈ sockets, socketAddress c.connection = fileSession.socketAddress) ∧
      ∀ c ∈ sockets, SameConnection
        ⟨"127.0.0.1",49123,49124,defaultPacketSendRate,some someIni,true⟩ c.connection := by
  have hsound : ∀ x ∈ fileCalls, x.2.Sound := by
    intro x hx contents
    simp only [fileCalls, List.mem_cons, List.not_mem_nil, or_false] at hx
    rcases hx with rfl | rfl | rfl | rfl <;> rfl
  obtain ⟨haddress,hsame⟩ := session_connections (fun _ => "") (ofTexts []) noText (fun _ => "")
    "127.0.0.1" 49123 (some someIni) true defaultPacketSendRate true (some zeroRate) fileCalls
  exact ⟨_,rfl,haddress,hsame someIni zeroRate _ rfl rfl (by decide +kernel) (by decide +kernel)
    hsound⟩

end Answers

end RlStatsApi.PythonClient
