import RlStatsApi.SosTranslation
import RlStatsApi.StreamRuns

/-!
# The main loops of the relay and the broadcaster

Both loops draw events from a source, hand their translations to a sink and
count them; any other result of the source makes them reconnect, ten times at
most. They differ in the sink only. A client that meets a value it cannot
parse still keeps what it received after it; the loops give that up, because
they reconnect after every error.
-/

set_option autoImplicit false

namespace RlStatsApi.RelayLoop
open RlStatsApi.JsonValue RlStatsApi.Error RlStatsApi.EventParsing RlStatsApi.SosTranslation
open RlStatsApi.StreamFraming RlStatsApi.StreamClient RlStatsApi.StreamRuns RlStatsApi.TextReader

/-! ## Sources and sinks -/

/-- The next result, or the shutdown signal before it; and an attempt to
reconnect. -/
structure Source (σ : Type) where
  nextEvent : σ → Poll (Outcome (Option StatsEvent)) × σ
  reconnect : σ → Outcome Unit × σ

structure Sink (τ : Type) where
  send : τ → SosEnvelope → τ
  handed : τ → List SosEnvelope
  handed_send : ∀ t e, handed (send t e) = handed t++[e]

/-- A client, and how the attempts to reconnect will go. -/
structure Link where
  client : Client
  attempts : List (Option (List Read))

def clientSource (D : Deserializer Json) (read : Reader) :
    Source Link where
  nextEvent l :=
    let r := l.client.nextEvent D read
    (r.1,⟨r.2,l.attempts⟩)
  reconnect l :=
    match l.attempts with
    | some reader::rest => (.ok (),⟨(l.client.reconnect (.connected reader)).2,rest⟩)
    | none::rest => (.error .socketIo,⟨(l.client.reconnect .failed).2,rest⟩)
    | [] => (.error .socketIo,l)

/-- The websocket of the relay: how sends and connection attempts will go,
all of them well after those listed, and what the overlay received. -/
structure Overlay where
  sends : List Bool
  connects : List Bool
  received : List SosEnvelope

def connectWsWithRetry : List Bool → List Bool
  | [] => []
  | true::connects => connects
  | false::connects => connectWsWithRetry connects

/-- A send that fails delivers nothing and is tried again on a new connection. -/
def sendEnvelopeWithRetry (envelope : SosEnvelope) (received : List SosEnvelope) :
    List Bool → List Bool → Overlay
  | [], connects => ⟨[],connects,received++[envelope]⟩
  | true::sends, connects => ⟨sends,connects,received++[envelope]⟩
  | false::sends, connects =>
    sendEnvelopeWithRetry envelope received sends (connectWsWithRetry connects)

theorem sendEnvelopeWithRetry_received (envelope : SosEnvelope) (received : List SosEnvelope)
    (sends connects : List Bool) :
    (sendEnvelopeWithRetry envelope received sends connects).received = received++[envelope] := by
  induction sends generalizing connects with
  | nil => rfl
  | cons sent sends ih =>
    cases sent with
    | true => rfl
    | false => exact ih _

def relaySink : Sink Overlay where
  send o e := sendEnvelopeWithRetry e o.received o.sends o.connects
  handed := Overlay.received
  handed_send o e := sendEnvelopeWithRetry_received e o.received o.sends o.connects

/-- The channel of the broadcaster: how many subscribers the next payloads
will meet, and the payloads sent with their subscribers. -/
structure Channel where
  subscribers : List ℕ
  sent : List (SosEnvelope × ℕ)

def broadcastSink : Sink Channel where
  send c e := ⟨c.subscribers.tail,c.sent++[(e,c.subscribers.headD 0)]⟩
  handed c := c.sent.map Prod.fst
  handed_send c e := by simp

/-! ## The loop -/

inductive Failure where
  | stats (e : RlStatsError)
  | text (message : String)

inductive Exit where
  | shutdown
  | maxEvents
  | failed (e : Failure)

structure World (σ τ : Type) where
  source : σ
  sink : τ
  relayed : ℕ

section Loop

variable {σ τ : Type} (S : Source σ) (T : Sink τ) (maxEvents : Option ℕ)

def reconnectRlWithBackoff : ℕ → Option RlStatsError → σ → Except Failure Unit × σ
  | 0, none, s => (.error (.text "reconnect failed"),s)
  | 0, some e, s => (.error (.stats e),s)
  | n+1, _, s =>
    match S.reconnect s with
    | (.ok (),s) => (.ok (),s)
    | (.error e,s) => reconnectRlWithBackoff n (some e) s

/-- The envelopes of one event; reaching the maximum stops between two of them. -/
def forward : List SosEnvelope → ℕ → τ → Option Exit × ℕ × τ
  | [], relayed, t => (none,relayed,t)
  | e::envelopes, relayed, t =>
    if maxEvents.any (fun max => decide (max ≤ relayed+1)) = true then
      (some .maxEvents,relayed+1,T.send t e)
    else forward envelopes (relayed+1) (T.send t e)

def afterReconnect (w : World σ τ) : Option Exit × World σ τ :=
  match reconnectRlWithBackoff S 10 none w.source with
  | (.ok (),s) => (none,{w with source := s})
  | (.error e,s) => (some (.failed e),{w with source := s})

def turn (w : World σ τ) : Option Exit × World σ τ :=
  match S.nextEvent w.source with
  | (.dropped,s) => (some .shutdown,{w with source := s})
  | (.ready (.ok (some event)),s) =>
    match translateStatsEvent event with
    | .ok envelopes =>
      let r := forward T maxEvents envelopes w.relayed w.sink
      (r.1,⟨s,r.2.2,r.2.1⟩)
    | .error e => (some (.failed (.stats e)),{w with source := s})
  | (.ready (.ok none),s) => afterReconnect S {w with source := s}
  | (.ready (.error _),s) => afterReconnect S {w with source := s}

/-- The first `n` turns, or as many as there are before the loop exits. -/
def mainLoop : ℕ → World σ τ → Option Exit × World σ τ
  | 0, w => (none,w)
  | n+1, w =>
    match turn S T maxEvents w with
    | (none,w) => mainLoop n w
    | (some exit,w) => (some exit,w)

theorem mainLoop_add (j k : ℕ) (w w' : World σ τ) (h : mainLoop S T maxEvents j w = (none,w')) :
    mainLoop S T maxEvents (j+k) w = mainLoop S T maxEvents k w' := by
  induction j generalizing w with
  | zero =>
    cases h
    rw [Nat.zero_add]
  | succ j ih =>
    rw [Nat.add_right_comm, mainLoop]
    rw [mainLoop] at h
    cases hw : turn S T maxEvents w with
    | mk exit v =>
      rw [hw] at h
      cases exit with
      | none => exact ih v h
      | some exit => cases h

theorem mainLoop_exit (j k : ℕ) (w w' : World σ τ) (exit : Exit)
    (h : mainLoop S T maxEvents j w = (some exit,w')) :
    mainLoop S T maxEvents (j+k) w = (some exit,w') := by
  induction j generalizing w with
  | zero => cases h
  | succ j ih =>
    rw [Nat.add_right_comm, mainLoop]
    rw [mainLoop] at h
    cases hw : turn S T maxEvents w with
    | mk exit' v =>
      rw [hw] at h
      cases exit' with
      | none => exact ih v h
      | some exit' => exact h

/-! ### What has been handed over stays -/

theorem forward_handed (envelopes : List SosEnvelope) (relayed : ℕ) (t : τ) :
    T.handed t <+: T.handed (forward T maxEvents envelopes relayed t).2.2 := by
  induction envelopes generalizing relayed t with
  | nil => exact List.prefix_refl _
  | cons e envelopes ih =>
    have he : T.handed t <+: T.handed (T.send t e) := ⟨[e],(T.handed_send t e).symm⟩
    rw [forward]
    split_ifs
    · exact he
    · exact he.trans (ih _ _)

theorem afterReconnect_sink (w : World σ τ) : (afterReconnect S w).2.sink = w.sink := by
  unfold afterReconnect
  split <;> rfl

theorem afterReconnect_relayed (w : World σ τ) :
    (afterReconnect S w).2.relayed = w.relayed := by
  unfold afterReconnect
  split <;> rfl

theorem turn_handed (w : World σ τ) :
    T.handed w.sink <+: T.handed (turn S T maxEvents w).2.sink := by
  unfold turn
  split
  · exact List.prefix_refl _
  · split
    · exact forward_handed T maxEvents _ _ _
    · exact List.prefix_refl _
  · rw [afterReconnect_sink]
  · rw [afterReconnect_sink]

theorem mainLoop_handed (k : ℕ) (w : World σ τ) :
    T.handed w.sink <+: T.handed (mainLoop S T maxEvents k w).2.sink := by
  induction k generalizing w with
  | zero => exact List.prefix_refl _
  | succ k ih =>
    have ht := turn_handed S T maxEvents w
    rw [mainLoop]
    cases hw : turn S T maxEvents w with
    | mk exit v =>
      rw [hw] at ht
      cases exit with
      | none => exact ht.trans (ih v)
      | some exit => exact ht

/-- What is handed over at any time is a part of what is at the exit. -/
theorem mainLoop_before_exit (j k : ℕ) (w w' : World σ τ) (exit : Exit)
    (h : mainLoop S T maxEvents j w = (some exit,w')) :
    T.handed (mainLoop S T maxEvents k w).2.sink <+: T.handed w'.sink := by
  by_cases hk : j ≤ k
  · obtain ⟨i,rfl⟩ := Nat.exists_eq_add_of_le hk
    rw [mainLoop_exit S T maxEvents j i w w' exit h]
  · obtain ⟨i,rfl⟩ := Nat.exists_eq_add_of_le (Nat.le_of_not_le hk)
    cases hm : mainLoop S T maxEvents k w with
    | mk exit' v =>
      cases exit' with
      | none =>
        rw [mainLoop_add S T maxEvents k i w v hm] at h
        have hv := mainLoop_handed S T maxEvents i v
        rw [h] at hv
        exact hv
      | some exit' =>
        rw [mainLoop_exit S T maxEvents k i w v exit' hm] at h
        cases h
        exact List.prefix_refl _

/-! ### Without a maximum -/

theorem forward_all (envelopes : List SosEnvelope) (relayed : ℕ) (t : τ) :
    forward T none envelopes relayed t =
      (none,relayed+envelopes.length,envelopes.foldl T.send t) := by
  induction envelopes generalizing relayed t with
  | nil => rfl
  | cons e envelopes ih =>
    rw [forward, if_neg (by simp), ih, List.foldl_cons, List.length_cons]
    congr 2
    omega

theorem handed_sendAll (envelopes : List SosEnvelope) (t : τ) :
    T.handed (envelopes.foldl T.send t) = T.handed t++envelopes := by
  induction envelopes generalizing t with
  | nil => simp
  | cons e envelopes ih => rw [List.foldl_cons, ih, T.handed_send, List.append_assoc]; rfl

end Loop

/-! ## Connections -/

def translation (event : StatsEvent) : List SosEnvelope :=
  match translateStatsEvent event with
  | .ok envelopes => envelopes
  | .error _ => []

theorem translateStatsEvent_eq (event : StatsEvent) :
    translateStatsEvent event = .ok (translation event) := by
  obtain ⟨envelopes,he⟩ := translateStatsEvent_ok event
  rw [translation, he]

/-- The events of the values before the first one that is rejected. -/
def accepted (read : Reader) : List Json → List StatsEvent
  | [] => []
  | v::vs =>
    match parseStatsEventValue read v.1 with
    | .ok event => event::accepted read vs
    | .error _ => []

/-- A connection to come: the attempts that fail before it, its reads, and
what they make up. -/
structure Connection where
  failures : ℕ
  reader : List Read
  values : List Json
  ending : Ending

def Connection.attempts (c : Connection) : List (Option (List Read)) :=
  List.replicate c.failures none++[some c.reader]

section Connections

variable (D : Deserializer Json) (read : Reader)

structure Connection.Ready (c : Connection) : Prop where
  few : c.failures < 10
  running : drops c.reader = 0
  serves : Serves D (.connect c.reader) c.values c.ending

variable {τ : Type} (T : Sink τ)

theorem turn_event (c c' : Client) (event : StatsEvent) (attempts : List (Option (List Read)))
    (t : τ) (n : ℕ) (h : c.nextEvent D read = (.ready (.ok (some event)),c')) :
    turn (clientSource D read) T none ⟨⟨c,attempts⟩,t,n⟩ =
      (none,⟨⟨c',attempts⟩,(translation event).foldl T.send t,n+(translation event).length⟩) := by
  have hn : (clientSource D read).nextEvent ⟨c,attempts⟩ =
      (.ready (.ok (some event)),⟨c',attempts⟩) := by
    simp only [clientSource, h]
  simp only [turn, hn, translateStatsEvent_eq, forward_all]

theorem turn_reconnects (c c' : Client) (x : Outcome (Option StatsEvent))
    (attempts : List (Option (List Read))) (t : τ) (n : ℕ)
    (h : c.nextEvent D read = (.ready x,c')) (hx : ∀ event, x ≠ .ok (some event)) :
    turn (clientSource D read) T none ⟨⟨c,attempts⟩,t,n⟩ =
      afterReconnect (clientSource D read) ⟨⟨c',attempts⟩,t,n⟩ := by
  have hn : (clientSource D read).nextEvent ⟨c,attempts⟩ = (.ready x,⟨c',attempts⟩) := by
    simp only [clientSource, h]
  cases x with
  | error e => simp only [turn, hn]
  | ok o =>
    cases o with
    | none => simp only [turn, hn]
    | some event => exact absurd rfl (hx event)

theorem reconnect_succeeds (n f : ℕ) (hf : f < n) (last : Option RlStatsError) (c : Client)
    (reader : List Read) (rest : List (Option (List Read))) :
    reconnectRlWithBackoff (clientSource D read) n last
      ⟨c,List.replicate f none++some reader::rest⟩ = (.ok (),⟨.connect reader,rest⟩) := by
  induction n generalizing f last with
  | zero => omega
  | succ n ih =>
    cases f with
    | zero => rfl
    | succ f =>
      show reconnectRlWithBackoff (clientSource D read) n (some .socketIo)
        ⟨c,List.replicate f none++some reader::rest⟩ = _
      exact ih f (by omega) _

theorem reconnect_fails (n : ℕ) (e : RlStatsError) (c : Client) (he : e = .socketIo) :
    reconnectRlWithBackoff (clientSource D read) n (some e) ⟨c,[]⟩ =
      (.error (.stats .socketIo),⟨c,[]⟩) := by
  induction n generalizing e with
  | zero =>
    subst he
    rfl
  | succ n ih => exact ih _ rfl

theorem delivered_cases (v : Json) :
    (∃ event, parseStatsEventValue read v.1 = .ok event ∧
      delivered read v = .ok (some event)) ∨
    (∃ e, parseStatsEventValue read v.1 = .error e ∧ delivered read v = .error e) := by
  unfold delivered
  cases hp : parseStatsEventValue read v.1 with
  | ok event => exact .inl ⟨event,rfl,rfl⟩
  | error e => exact .inr ⟨e,rfl,rfl⟩

/-- One connection: the loop hands over what is accepted, and then its client
has no event for it. -/
theorem loop_connection (vs : List Json) (e : Ending) (c : Client) (hs : Serves D c vs e)
    (hd : drops c.reader = 0) (attempts : List (Option (List Read))) (t : τ) (n : ℕ) :
    ∃ k c' t' n', mainLoop (clientSource D read) T none k ⟨⟨c,attempts⟩,t,n⟩ =
        (none,⟨⟨c',attempts⟩,t',n'⟩) ∧
      T.handed t' = T.handed t++(accepted read vs).flatMap translation ∧
      ∃ x c'', c'.nextEvent D read = (.ready x,c'') ∧ ∀ event, x ≠ .ok (some event) := by
  induction vs generalizing c t n with
  | nil =>
    rcases nextEvent_stream D read c.reader c.readBuffer [] e hs with
      ⟨v,vs',c',he,_⟩ | ⟨c',_,_,hlt⟩ | ⟨c',_,hc,_⟩
    · cases he
    · omega
    · refine ⟨0,c,t,n,rfl,by simp [accepted],final e,c',hc,?_⟩
      cases e <;> simp [final]
  | cons v vs ih =>
    rcases nextEvent_stream D read c.reader c.readBuffer (v::vs) e hs with
      ⟨v',vs',c',he,hc,hs',hle⟩ | ⟨c',_,_,hlt⟩ | ⟨c',he,_⟩
    · cases he
      rcases delivered_cases read v with ⟨event,hp,hdel⟩ | ⟨err,hp,hdel⟩
      · rw [hdel] at hc
        obtain ⟨k,c1,t1,n1,hk,ht,hx⟩ := ih c' hs' (by omega)
          ((translation event).foldl T.send t) (n+(translation event).length)
        refine ⟨k+1,c1,t1,n1,?_,?_,hx⟩
        · rw [mainLoop, turn_event D read T c c' event attempts t n hc]
          exact hk
        · rw [ht, handed_sendAll, accepted, hp, List.flatMap_cons, List.append_assoc]
      · rw [hdel] at hc
        exact ⟨0,c,t,n,rfl,by simp [accepted, hp],.error err,c',hc,by simp⟩
    · omega
    · cases he

/-- The translations on a first connection and on those that follow. -/
def translationsOn (vs : List Json) (rest : List Connection) : List SosEnvelope :=
  (accepted read vs).flatMap translation++
    rest.flatMap (fun x => (accepted read x.values).flatMap translation)

theorem run_connections (c : Client) (vs : List Json) (e : Ending)
    (hs : Serves D c vs e) (hd : drops c.reader = 0) (rest : List Connection)
    (hr : ∀ x ∈ rest, x.Ready D) (t : τ) (n : ℕ) :
    ∃ k w, mainLoop (clientSource D read) T none k
        ⟨⟨c,rest.flatMap Connection.attempts⟩,t,n⟩ = (some (.failed (.stats .socketIo)),w) ∧
      T.handed w.sink = T.handed t++translationsOn read vs rest := by
  induction rest generalizing c vs e t n with
  | nil =>
    obtain ⟨k,c1,t1,n1,hk,ht,x,c2,hc,hx⟩ := loop_connection D read T vs e c hs hd [] t n
    refine ⟨k+1,⟨⟨c2,[]⟩,t1,n1⟩,?_,by simpa [translationsOn] using ht⟩
    rw [List.flatMap_nil, mainLoop_add _ _ _ k 1 _ _ hk, mainLoop,
      turn_reconnects D read T c1 c2 x [] t1 n1 hc hx, afterReconnect]
    have hf : reconnectRlWithBackoff (clientSource D read) 10 none ⟨c2,[]⟩ =
      (.error (.stats .socketIo),⟨c2,[]⟩) := reconnect_fails D read 9 .socketIo c2 rfl
    simp only [hf]
  | cons y rest ih =>
    obtain ⟨k,c1,t1,n1,hk,ht,x,c2,hc,hx⟩ := loop_connection D read T vs e c hs hd
      ((y::rest).flatMap Connection.attempts) t n
    have hy := hr y (by simp)
    obtain ⟨k2,w,hw,hh⟩ := ih (.connect y.reader) y.values y.ending hy.serves hy.running
      (fun z hz => hr z (by simp [hz])) t1 n1
    have hrec : reconnectRlWithBackoff (clientSource D read) 10 none
        ⟨c2,(y::rest).flatMap Connection.attempts⟩ =
        (.ok (),⟨.connect y.reader,rest.flatMap Connection.attempts⟩) := by
      rw [List.flatMap_cons, Connection.attempts, List.append_assoc]
      exact reconnect_succeeds D read 10 y.failures hy.few none c2 y.reader _
    refine ⟨k+(k2+1),w,?_,?_⟩
    · rw [mainLoop_add _ _ _ k (k2+1) _ _ hk, mainLoop,
        turn_reconnects D read T c1 c2 x _ t1 n1 hc hx, afterReconnect]
      simp only [hrec]
      exact hw
    · rw [hh, ht, translationsOn, translationsOn, List.flatMap_cons, List.append_assoc]

/-- A run over several connections that all end: on each of them the loop
hands over the translations of what comes before the first rejected value,
in order and once, whatever the reads. The values after it are lost. -/
theorem forwards_until_rejected (c : Client) (vs : List Json) (e : Ending)
    (hs : Serves D c vs e) (hd : drops c.reader = 0) (rest : List Connection)
    (hr : ∀ x ∈ rest, x.Ready D) (t : τ) (n : ℕ) :
    ∃ k w, mainLoop (clientSource D read) T none k
        ⟨⟨c,rest.flatMap Connection.attempts⟩,t,n⟩ = (some (.failed (.stats .socketIo)),w) ∧
      T.handed w.sink = T.handed t++((accepted read vs).flatMap translation++
        rest.flatMap (fun x => (accepted read x.values).flatMap translation)) ∧
      ∀ j, T.handed (mainLoop (clientSource D read) T none j
        ⟨⟨c,rest.flatMap Connection.attempts⟩,t,n⟩).2.sink <+: T.handed w.sink := by
  obtain ⟨k,w,hk,hh⟩ := run_connections D read T c vs e hs hd rest hr t n
  exact ⟨k,w,hk,hh,fun j => mainLoop_before_exit _ T none k j _ w _ hk⟩

end Connections

/-! ## A rejected value before an accepted one -/

def asBytes (s : String) : Bytes := s.toList.map (fun c => c.toNat.toUInt8)

def emptyText : Bytes := asBytes "\x7b\x7d"

def plainText : Bytes := asBytes "\x7b\"Event\":\"X\",\"Data\":0\x7d"

theorem empty_canonical : (Value.object []).Canonical := .object _ .nil (by simp)

def emptyValue : Json := ⟨.object [],empty_canonical⟩

def plainMembers : Members := [("Data",.number (.posInt 0 (by decide))),("Event",.string "X")]

def plainValue : Json :=
  ⟨.object plainMembers,.object _ (List.pairwise_pair.mpr (by decide))
    (by simp [plainMembers, Value.Canonical.number, Value.Canonical.string])⟩

def texts : List (Bytes × Json) := [(emptyText,emptyValue),(plainText,plainValue)]

def objects : Deserializer Json := ofTexts texts

theorem objects_framed (t : Bytes) (v : Json) (hm : (t,v) ∈ texts) (hs : Starts t) :
    Framed objects t v := ofTexts_framed texts (by decide) t v hm hs

theorem empty_framed : Framed objects emptyText emptyValue :=
  objects_framed _ _ (by simp [texts]) ⟨123,_,rfl,rfl⟩

theorem plain_framed : Framed objects plainText plainValue :=
  objects_framed _ _ (by simp [texts]) ⟨123,_,rfl,rfl⟩

theorem objects_closed : Stream objects [] [] .closed := .tail [] .closed (fun h => absurd rfl h)

/-- The two texts in one read. -/
def rejectedFirst : Client := .connect [.chunk 123 (125::plainText)]

theorem rejectedFirst_serves : Serves objects rejectedFirst [emptyValue,plainValue] .closed where
  quiet := by simp [rejectedFirst, Client.connect]
  stream := .text emptyText (plainText++[]) _ _ _ empty_framed
    (.text plainText [] _ _ _ plain_framed objects_closed)

def noTrouble : Overlay := ⟨[],[],[]⟩

def plainEnvelope : SosEnvelope := ⟨"X",.number (.posInt 0 (by decide))⟩

/-- The client returns the second value after the first is rejected, but the
relay never sends it. -/
theorem received_value_lost :
    ∃ event w, delivered noText plainValue = .ok (some event) ∧
      translation event = [plainEnvelope] ∧
      calls objects noText 2 rejectedFirst = [.error (.json .data),.ok (some event)] ∧
      mainLoop (clientSource objects noText) relaySink none 1 ⟨⟨rejectedFirst,[]⟩,noTrouble,0⟩ =
        (some (.failed (.stats .socketIo)),w) ∧ w.sink.received = [] :=
  ⟨.unknown ⟨"X",.number (.posInt 0 (by decide))⟩,_,rfl,rfl,rfl,rfl,rfl⟩

def plainAgain : Connection := ⟨2,[.chunk 123 plainText.tail],[plainValue],.closed⟩

theorem plainAgain_ready : plainAgain.Ready objects where
  few := by decide
  running := rfl
  serves :=
    { quiet := by simp [plainAgain, Client.connect]
      stream := .text plainText [] _ _ _ plain_framed objects_closed }

theorem relayed_after_reconnect :
    ∃ k w, mainLoop (clientSource objects noText) relaySink none k
        ⟨⟨rejectedFirst,[none,none,some [.chunk 123 plainText.tail]]⟩,⟨[false],[false],[]⟩,0⟩ =
          (some (.failed (.stats .socketIo)),w) ∧
      w.sink.received = [plainEnvelope] ∧
      ∀ j, (mainLoop (clientSource objects noText) relaySink none j
        ⟨⟨rejectedFirst,[none,none,some [.chunk 123 plainText.tail]]⟩,
          ⟨[false],[false],[]⟩,0⟩).2.sink.received <+: w.sink.received :=
  forwards_until_rejected objects noText relaySink rejectedFirst _ _ rejectedFirst_serves rfl
    [plainAgain] (by simpa using plainAgain_ready) ⟨[false],[false],[]⟩ 0

end RlStatsApi.RelayLoop
