import RlStatsApi.PythonClient
import RlStatsApi.RelayLoop

/-!
# What the client of the bindings sends and reads

Its connections receive the texts of the accepted commands, and nothing of
the others. Where no write fails, a game at the other end reads exactly the
commands whose sends returned. Reading is not disturbed by what is sent.
-/

set_option autoImplicit false

namespace RlStatsApi.ClientTraffic
open RlStatsApi.TextLines RlStatsApi.JsonValue RlStatsApi.Error RlStatsApi.EventParsing
open RlStatsApi.EventFilters RlStatsApi.StreamFraming RlStatsApi.StreamClient RlStatsApi.StreamRuns
open RlStatsApi.ClientConfig RlStatsApi.StatsCommands RlStatsApi.PythonClient RlStatsApi.TextReader
open RlStatsApi.RelayLoop (objects plainAgain plainAgain_ready plainValue)

variable (print : Value → String) (D : Deserializer Json)
variable (read : Reader) (display : Value → String)

/-! ## What the peers receive -/

/-- Not a command, or not one that is accepted. -/
def Rejected : Call → Prop
  | .sendCommandJson raw => ∃ e, commandOf read display raw = .error e
  | _ => False

theorem rejected_call (s : Session) (a : Attempt) (call : Call)
    (h : Rejected read display call) : (s.call print D read display a call).2 = s := by
  cases call with
  | sendCommandJson raw =>
    obtain ⟨e,he⟩ := h
    simp only [Session.call, he]
  | connect | reconnect | nextEventJson | nextFilteredEventJson | close => cases h

open Classical in
/-- Rejected commands leave a run as it would be without them. -/
theorem run_accepted (calls : List (Call × Attempt)) (s : Session) :
    (s.run print D read display calls).2 = (s.run print D read display
      (calls.filter (fun x => decide (¬ Rejected read display x.1)))).2 := by
  induction calls generalizing s with
  | nil => rfl
  | cons x calls ih =>
    obtain ⟨call,a⟩ := x
    by_cases hr : Rejected read display call
    · rw [List.filter_cons_of_neg (by simpa using hr), Session.run]
      simp only [rejected_call print D read display s a call hr]
      exact ih s
    · rw [List.filter_cons_of_pos (by simpa using hr), Session.run, Session.run]
      exact ih _

open Classical in
/-- What the connections of a session receive, one after the other, is made of
one part for each call: the whole text of an accepted command whose send
returns, the start of it where an exception is raised, and nothing else. -/
theorem session_writes (calls : List (Call × Attempt)) (s : Session) :
    (∃ parts, (s.run print D read display calls).2.written = s.written++parts.flatten ∧
      List.Forall₂ (fun x part => Writes print read display x.1 part x.2.1)
        ((s.run print D read display calls).1.zip calls) parts) ∧
    (s.run print D read display calls).2 = (s.run print D read display
      (calls.filter (fun x => decide (¬ Rejected read display x.1)))).2 := by
  obtain ⟨parts,hacts,hw⟩ := run_acts print D read display (P := fun _ => True) calls
    (fun _ _ => trivial) s
  exact ⟨⟨parts,acts_written hacts,hw⟩,run_accepted print D read display calls s⟩

/-! ## What a game reads -/

/-- The text of a command, and nothing for one that has none. -/
def textOf (command : StatsCommand) : Bytes :=
  match command.toValue with
  | .ok value => asBytes (print value)
  | .error _ => []

/-- The command of a send that returned. -/
def sentBy (x : Answer × Call × Attempt) : List StatsCommand :=
  match x.1, x.2.1 with
  | .ok _, .sendCommandJson raw => (commandOf read display raw).toOption.toList
  | _, _ => []

/-- Each connection has received the texts of some valid commands. -/
def Received (s : Session) (sent : List (List StatsCommand)) : Prop :=
  List.Forall₂ (fun c commands => c.written = commands.flatMap (textOf print) ∧
    ∀ command ∈ commands, command.validate = .ok ()) s.sockets sent

theorem received_some {s : Session} {c : RlClient} (hc : s.client = some c)
    {sent : List (List StatsCommand)} (h : Received print s sent) :
    ∃ before last, sent = before++[last] ∧
      Received print {s with client := none} before ∧
      c.written = last.flatMap (textOf print) ∧ ∀ command ∈ last, command.validate = .ok () := by
  rw [Received, sockets_some hc] at h
  have hb := (List.forall₂_take_append _ _ _ h.flip).flip
  have hl := List.forall₂_drop_append _ _ _ h.flip
  cases hd : sent.drop s.closed.length with
  | nil =>
    rw [hd] at hl
    cases hl
  | cons last rest =>
    rw [hd] at hl
    cases hl with
    | cons hlast hnil =>
      cases hnil
      refine ⟨sent.take s.closed.length,last,?_,?_,hlast.1,hlast.2⟩
      · rw [← hd, List.take_append_drop]
      · simpa [Received, Session.sockets] using hb

theorem received_replaced {s : Session} {c : RlClient} (before : List (List StatsCommand))
    (last : List StatsCommand) (hb : Received print {s with client := none} before)
    (hw : c.written = last.flatMap (textOf print))
    (hv : ∀ command ∈ last, command.validate = .ok ()) :
    Received print {s with client := some c} (before++[last]) := by
  have hb' : Received print {s with client := none} before := hb
  simp only [Received, Session.sockets, Option.toList_none, List.append_nil] at hb'
  exact List.rel_append hb' (.cons ⟨hw,hv⟩ .nil)

theorem act_received {P : Attempt → Prop} {s e : Session} {part : Bytes} (h : Act P s e part)
    (hp : part = []) (sent : List (List StatsCommand)) (hs : Received print s sent) :
    ∃ sent', Received print e sent' ∧ sent'.flatten = sent.flatten := by
  cases h with
  | prepared => exact ⟨sent,hs,rfl⟩
  | opened => exact ⟨sent++[[]],List.rel_append hs (.cons ⟨rfl,by simp⟩ .nil),by simp⟩
  | reopened => exact ⟨sent++[[]],List.rel_append hs (.cons ⟨rfl,by simp⟩ .nil),by simp⟩
  | used c c' part hc _ hw =>
    obtain ⟨before,last,rfl,hb,hl,hv⟩ := received_some print hc hs
    rw [hp, List.append_nil, hl] at hw
    exact ⟨_,received_replaced print before last hb hw hv,rfl⟩
  | closed => exact ⟨sent,by simpa [Received, Session.sockets] using hs,rfl⟩

theorem acts_received {P : Attempt → Prop} {s e : Session} {part : Bytes} (h : Acts P s e part)
    (hp : part = []) (sent : List (List StatsCommand)) (hs : Received print s sent) :
    ∃ sent', Received print e sent' ∧ sent'.flatten = sent.flatten := by
  induction h generalizing sent with
  | done s => exact ⟨sent,hs,rfl⟩
  | act s m e p q ha _ ih =>
    obtain ⟨hp,hq⟩ := List.append_eq_nil_iff.mp hp
    obtain ⟨sent',hs',he⟩ := act_received print ha hp sent hs
    obtain ⟨sent'',hs'',he'⟩ := ih hq sent' hs'
    exact ⟨sent'',hs'',he'.trans he⟩

theorem call_received {P : Attempt → Prop} (hP : ∀ a, P a → a.Mild) (s : Session) (a : Attempt)
    (ha : P a) (call : Call) (hi : Intact s) (sent : List (List StatsCommand))
    (hs : Received print s sent) :
    ∃ sent', Received print (s.call print D read display a call).2 sent' ∧ sent'.flatten =
      sent.flatten++sentBy read display ((s.call print D read display a call).1,call,a) := by
  obtain ⟨part,hacts,hw⟩ := call_acts print D read display s a ha call
  cases call with
  | sendCommandJson raw =>
    cases hc : commandOf read display raw with
    | error e =>
      simp only [Writes, hc] at hw
      obtain ⟨sent',hs',he⟩ := acts_received print hacts hw.2 sent hs
      exact ⟨sent',hs',by simp [he, sentBy, hw.1]⟩
    | ok command =>
      obtain ⟨hvalid,value,hv⟩ := commandOf_valid read display raw command hc
      clear hacts hw
      simp only [Session.call, hc]
      rcases use_cases s a ha (sendOf print command) with ⟨e,m,hacts,h⟩ | ⟨m,c,hacts,hm,h⟩
      · obtain ⟨sent',hs',he⟩ := acts_received print hacts rfl sent hs
        rw [h]
        exact ⟨sent',hs',by simp [he, sentBy]⟩
      · obtain ⟨sent',hs',he⟩ := acts_received print hacts rfl sent hs
        obtain ⟨before,last,rfl,hb,hl,hlv⟩ := received_some print hm hs'
        have hwrites := acts_intact hP hacts hi c hm
        have hsend : sendOf print command c =
            (.ok none,{c with written := c.written++asBytes (print value)}) := by
          simp only [sendOf, RlClient.sendCommand, hv, RlClient.writeAll, hwrites]
        rw [h, hsend]
        have htext : textOf print command = asBytes (print value) := by simp only [textOf, hv]
        refine ⟨before++[last++[command]],received_replaced print before _ hb ?_ ?_,?_⟩
        · rw [hl, List.flatMap_append, List.flatMap_singleton, htext]
        · intro x hx
          rcases List.mem_append.mp hx with hx | hx
          · exact hlv x hx
          · rw [List.mem_singleton.mp hx]
            exact hvalid
        · have hone : sentBy read display (.ok none,.sendCommandJson raw,a) = [command] := by
            simp only [sentBy, hc]
            rfl
          rw [← he, hone]
          simp
  | connect | reconnect | nextEventJson | nextFilteredEventJson | close =>
    obtain ⟨sent',hs',he⟩ := acts_received print hacts hw sent hs
    refine ⟨sent',hs',?_⟩
    rw [he]
    cases (s.call print D read display a _).1 <;> simp [sentBy]

theorem run_received {P : Attempt → Prop} (hP : ∀ a, P a → a.Mild)
    (calls : List (Call × Attempt)) (h : ∀ x ∈ calls, P x.2) (s : Session) (hi : Intact s)
    (sent : List (List StatsCommand)) (hs : Received print s sent) :
    ∃ sent', Received print (s.run print D read display calls).2 sent' ∧ sent'.flatten =
      sent.flatten++((s.run print D read display calls).1.zip calls).flatMap
        (sentBy read display) := by
  induction calls generalizing s sent with
  | nil => exact ⟨sent,hs,by simp [Session.run]⟩
  | cons x calls ih =>
    obtain ⟨call,a⟩ := x
    have ha := h (call,a) (List.mem_cons_self ..)
    obtain ⟨part,hacts,_⟩ := call_acts print D read display s a ha call
    obtain ⟨sent',hs',he⟩ := call_received print D read display hP s a ha call hi sent hs
    obtain ⟨sent'',hs'',he'⟩ := ih (fun y hy => h y (List.mem_cons_of_mem _ hy)) _
      (acts_intact hP hacts hi) sent' hs'
    refine ⟨sent'',hs'',?_⟩
    rw [he', he, Session.run, List.zip_cons_cons, List.flatMap_cons, List.append_assoc]

/-- The game finds the text of each of the commands, and waits for its rest. -/
def Understands (game : Deserializer Value) (commands : List StatsCommand) : Prop :=
  ∀ command ∈ commands, ∀ value, command.toValue = .ok value →
    Framed game (asBytes (print value)) value

/-- The bytes are those of the commands, each read as what it stands for. -/
def ReadAs (game : Deserializer Value) (bytes : Bytes) (commands : List StatsCommand) : Prop :=
  ∃ values, List.Forall₂ (fun command value => command.toValue = .ok value ∧
      StatsCommand.fromValue display value = .ok command.sent) commands values ∧
    StreamFraming.Stream game bytes values .closed

theorem texts_read (game : Deserializer Value) (commands : List StatsCommand)
    (hG : Understands print game commands)
    (h : ∀ command ∈ commands, command.validate = .ok ()) :
    ReadAs display game (commands.flatMap (textOf print)) commands := by
  induction commands with
  | nil => exact ⟨[],.nil,.tail [] .closed (fun hn => absurd rfl hn)⟩
  | cons command commands ih =>
    obtain ⟨values,hvalues,hstream⟩ := ih (fun x hx => hG x (List.mem_cons_of_mem _ hx))
      (fun x hx => h x (List.mem_cons_of_mem _ hx))
    have hvalid := h command (List.mem_cons_self ..)
    have hv := toValue_ok command hvalid
    refine ⟨_::values,.cons ⟨hv,fromValue_written display command hvalid⟩ hvalues,?_⟩
    have htext : textOf print command = asBytes (print (.ofMembers [("Command",
        .string command.name),("Data",.ofMembers command.data)])) := by
      simp only [textOf, hv]
    rw [List.flatMap_cons, htext]
    exact .text _ _ _ _ _ (hG command (List.mem_cons_self ..) _ hv) hstream

/-- The commands of the sends of a run that returned. -/
def sentCommands (answers : List Answer) (calls : List (Call × Attempt)) : List StatsCommand :=
  (answers.zip calls).flatMap (sentBy read display)

/-- Where no write fails, a game at the other end of each connection reads
complete commands, and all of them together are those of the sends that
returned, in order. -/
theorem commands_read (game : Deserializer Value) (host : String) (port : U16)
    (iniPath : Option IniPath) (auto : Bool) (rate : F32) (onlyZero : Bool) (file : Option Text)
    (calls : List (Call × Attempt)) (hmild : ∀ x ∈ calls, x.2.Mild)
    (hG : Understands print game (sentCommands read display
      ((Session.new host port iniPath auto rate onlyZero file).run print D read display calls).1
      calls)) :
    ∃ sent : List (List StatsCommand),
      List.Forall₂ (fun c commands => ReadAs display game c.written commands)
        ((Session.new host port iniPath auto rate onlyZero file).run print D read display
          calls).2.sockets sent ∧
      sent.flatten = sentCommands read display
        ((Session.new host port iniPath auto rate onlyZero file).run print D read display calls).1
        calls := by
  obtain ⟨sent,hs,he⟩ := run_received print D read display (P := Attempt.Mild) (fun _ h => h) calls
    hmild (Session.new host port iniPath auto rate onlyZero file) (fun c hc => by cases hc) []
    List.Forall₂.nil
  have he' : sent.flatten = sentCommands read display ((Session.new host port iniPath auto rate
      onlyZero file).run print D read display calls).1 calls := he
  refine ⟨sent,?_,he'⟩
  rw [← he'] at hG
  have hread : ∀ commands ∈ sent, Understands print game commands :=
    fun commands hc command hm => hG command (List.mem_flatten.mpr ⟨commands,hc,hm⟩)
  refine List.Forall₂.imp ?_ ((List.forall₂_and_left _ _).mpr ⟨hread,hs.flip⟩).flip
  rintro c commands ⟨hu,hw,hv⟩
  rw [hw]
  exact texts_read print display game commands hu hv

/-! ### A command sent on two connections -/

def pauseLine : Text :=
  "\x7b\"Command\":\"SetMatchPaused\",\"Data\":\x7b\"bPaused\":true\x7d\x7d".toList

def pauseText : String := String.ofList pauseLine

def pauseValue : Value :=
  .object [("Command",.string "SetMatchPaused"),("Data",.object [("bPaused",.bool true)])]

def printPause (_ : Value) : String := pauseText

/-- A reader of this one text. -/
def readPause : Reader := .ofValues fun text =>
  if text.toList = pauseLine then .ok pauseValue else .error .malformed

def pauseGame : Deserializer Value := ofTexts [(asBytes pauseText,pauseValue)]

/-- A game that sends nothing. -/
def quietGame : Attempt := ⟨{contents := none},some ⟨[],[]⟩⟩

def pauseCalls : List (Call × Attempt) :=
  [(.sendCommandJson pauseText,quietGame),(.close false,quietGame),
    (.sendCommandJson "pause",quietGame),(.sendCommandJson pauseText,quietGame)]

def pauseSession : Session :=
  .new "127.0.0.1" 49123 none true defaultPacketSendRate true none

theorem pause_understood : Understands printPause pauseGame
    [.setMatchPaused true,.setMatchPaused true] := by
  have hf : Framed pauseGame (asBytes pauseText) pauseValue :=
    ofTexts_framed _ (List.pairwise_singleton _ _) _ _ (List.mem_singleton_self _)
      ⟨_,_,rfl,by decide⟩
  intro command hc value hv
  have hcommand : command = .setMatchPaused true := by simpa using hc
  rw [hcommand] at hv
  cases hv
  exact hf

theorem pauses_read : ∃ sent : List (List StatsCommand),
    List.Forall₂ (fun c commands => ReadAs (fun _ => "") pauseGame c.written commands)
      (pauseSession.run printPause (ofTexts []) readPause (fun _ => "") pauseCalls).2.sockets
      sent ∧ sent.flatten = [.setMatchPaused true,.setMatchPaused true] := by
  have hmild : ∀ x ∈ pauseCalls, x.2.Mild := by
    intro x hx peer hp
    simp only [pauseCalls, List.mem_cons, List.not_mem_nil, or_false] at hx
    rcases hx with rfl | rfl | rfl | rfl <;> (cases hp; rfl)
  obtain ⟨sent,hsent,he⟩ := commands_read printPause (ofTexts []) readPause (fun _ => "") pauseGame
    "127.0.0.1" 49123 none true defaultPacketSendRate true none pauseCalls hmild
    pause_understood
  exact ⟨sent,hsent,he⟩

/-! ## What the caller reads -/

/-- The answers of some calls for the next event, one after the other. -/
def reads : ℕ → Client → List Answer
  | 0, _ => []
  | n+1, c => eventText print (c.nextEvent D read).1::reads n (c.nextEvent D read).2

def isNext : Call → Bool
  | .nextEventJson => true
  | _ => false

/-- A call for the next event or a send. -/
def Plain : Call → Prop
  | .nextEventJson | .sendCommandJson _ => True
  | _ => False

theorem use_connected (s : Session) (a : Attempt) (c : RlClient) (hc : s.client = some c)
    (f : RlClient → Answer × RlClient) :
    s.use a f = ((f c).1,{s with client := some (f c).2}) := by
  have hs : s.ensureConnected a = (.ok (),s) := by
    rw [Session.ensureConnected, hc]
    rfl
  rw [Session.use, hs]
  simp only [hc]

theorem sendOf_stream (command : StatsCommand) (c : RlClient) :
    (sendOf print command c).2.stream = c.stream := by
  unfold sendOf RlClient.sendCommand RlClient.writeAll
  cases command.toValue with
  | error e => rfl
  | ok value =>
    rcases c.writes with _ | ⟨_ | k,writes⟩ <;> rfl

/-- The answers to the calls for the next event, of all answers of a run. -/
def nextAnswers (answers : List Answer) (calls : List (Call × Attempt)) : List Answer :=
  ((answers.zip calls).filter (fun x => isNext x.2.1)).map Prod.fst

/-- Sending does not disturb reading. -/
theorem nextAnswers_reads (calls : List (Call × Attempt)) (h : ∀ x ∈ calls, Plain x.1)
    (s : Session) (c : RlClient) (hc : s.client = some c) :
    nextAnswers (s.run print D read display calls).1 calls =
      reads print D read (calls.countP (fun x => isNext x.1)) c.stream := by
  induction calls generalizing s c with
  | nil => rfl
  | cons x calls ih =>
    obtain ⟨call,a⟩ := x
    have hplain := h (call,a) (List.mem_cons_self ..)
    have ih := ih (fun y hy => h y (List.mem_cons_of_mem _ hy))
    rw [Session.run, nextAnswers, List.zip_cons_cons]
    cases call with
    | nextEventJson =>
      have hcall : s.call print D read display a .nextEventJson =
          ((nextOf print (Client.nextEvent D read) c).1,
            {s with client := some (nextOf print (Client.nextEvent D read) c).2}) :=
        use_connected s a c hc _
      rw [hcall, List.filter_cons_of_pos rfl, List.map_cons, List.countP_cons_of_pos rfl, reads]
      exact congrArg (_::·) (ih _ (nextOf print (Client.nextEvent D read) c).2 rfl)
    | sendCommandJson raw =>
      rw [List.filter_cons_of_neg (by simp [isNext]), List.countP_cons_of_neg (by simp [isNext])]
      simp only [Session.call]
      cases commandOf read display raw with
      | error e => exact ih s c hc
      | ok command =>
        simp only [use_connected s a c hc]
        rw [← sendOf_stream print command c]
        exact ih _ _ rfl
    | connect | reconnect | nextFilteredEventJson | close => cases hplain

theorem reads_ended (n : ℕ) (c : Client) (x : Outcome (Option StatsEvent))
    (h : c.nextEvent D read = (.ready x,c)) :
    reads print D read n c = List.replicate n (eventText print (.ready x)) := by
  induction n with
  | zero => rfl
  | succ n ih => rw [reads, h, ih, List.replicate_succ]

/-- The results of a framed stream with its end for ever after. -/
def outcomes (vs : List Json) (e : Ending) (n : ℕ) : List (Outcome (Option StatsEvent)) :=
  (vs.map (delivered read)++List.replicate n (final e)).take n

theorem outcomes_cons (v : Json) (vs : List Json) (e : Ending) (n : ℕ) :
    outcomes read (v::vs) e (n+1) = delivered read v::outcomes read vs e n := by
  rw [outcomes, outcomes, List.map_cons, List.cons_append, List.take_succ_cons,
    List.replicate_succ']
  rw [← List.append_assoc, List.take_append_of_le_length (by simp)]

theorem outcomes_nil (e : Ending) (n : ℕ) : outcomes read [] e n = List.replicate n (final e) := by
  rw [outcomes, List.map_nil, List.nil_append, List.take_of_length_le (by simp)]

theorem reads_stream (n : ℕ) (c : Client) (vs : List Json) (e : Ending) (h : Serves D c vs e)
    (hd : drops c.reader = 0) :
    reads print D read n c = (outcomes read vs e n).map (fun x => eventText print (.ready x)) := by
  induction n generalizing c vs with
  | zero => simp [reads, outcomes]
  | succ n ih =>
    rcases nextEvent_stream D read c.reader c.readBuffer vs e h with
      ⟨v,vs',c',rfl,hc,hs,hle⟩ | ⟨c',_,_,hlt⟩ | ⟨c',rfl,hc,hc'⟩
    · have hcall : c.nextEvent D read = (.ready (delivered read v),c') := hc
      rw [reads, hcall, outcomes_cons, List.map_cons, ih c' vs' hs (by omega)]
    · omega
    · have hcall : c.nextEvent D read = (.ready (final e),c') := hc
      rw [reads, hcall, reads_ended print D read n c' _ hc', outcomes_nil, List.map_replicate,
        List.replicate_succ]

/-- On a connection, whatever is sent between the calls for the next event and
however the sends go, these return the texts of the peer's values in order,
and the end of its stream ever after. -/
theorem session_reads (s : Session) (c : RlClient) (hc : s.client = some c) (vs : List Json)
    (e : Ending) (h : Serves D c.stream vs e) (hd : drops c.stream.reader = 0)
    (calls : List (Call × Attempt)) (hp : ∀ x ∈ calls, Plain x.1) :
    nextAnswers (s.run print D read display calls).1 calls =
      (outcomes read vs e (calls.countP (fun x => isNext x.1))).map
        (fun x => eventText print (.ready x)) := by
  rw [nextAnswers_reads print D read display calls hp s c hc,
    reads_stream print D read _ _ _ _ h hd]

/-- A connection on which one value comes. -/
def plainSession : Session :=
  {pauseSession with client := some ⟨⟨"127.0.0.1",49123,49124,defaultPacketSendRate,none,false⟩,
    .connect plainAgain.reader,[some 3],[]⟩}

/-- Reads before and after a send that fails. -/
def plainCalls : List (Call × Attempt) :=
  [(.nextEventJson,quietGame),(.sendCommandJson pauseText,quietGame),(.nextEventJson,quietGame)]

theorem plain_value_read : nextAnswers (plainSession.run (fun _ => "X") objects readPause
    (fun _ => "") plainCalls).1 plainCalls = [.ok (some "X"),.ok none] := by
  have hp : ∀ x ∈ plainCalls, Plain x.1 := by
    simp [plainCalls, Plain]
  exact session_reads (fun _ => "X") objects readPause (fun _ => "") plainSession _ rfl
    [plainValue] .closed plainAgain_ready.serves plainAgain_ready.running plainCalls hp

end RlStatsApi.ClientTraffic
