import RlStatsApi.LabelledRuns
import RlStatsApi.RelayLoop

/-!
# Delivery to the overlay

The relay as a machine that steps with each result it gets: of the source, of
a send, of an attempt to connect to the overlay or to reconnect to the game.
An envelope is delivered when its send succeeds. What has been delivered and
what is still held for delivery make up the translations of the events
returned, whatever fails in between.
-/

set_option autoImplicit false

namespace RlStatsApi.OverlayDelivery
open RlStatsApi.Error RlStatsApi.EventParsing RlStatsApi.SosTranslation RlStatsApi.StreamClient
open RlStatsApi.RelayLoop RlStatsApi.LabelledRuns

/-- Where the relay waits: at its select, for a send, for a new connection to
the overlay, or for the game, with some attempts left. -/
inductive Phase where
  | waiting
  | sending (e : SosEnvelope) (rest : List SosEnvelope)
  | connecting (e : SosEnvelope) (rest : List SosEnvelope)
  | reconnecting (left : ℕ)
  | exited

inductive Occurrence where
  | nextEvent (r : Outcome (Option StatsEvent))
  | shutdown
  | sent
  | sendFailed
  | connected
  | connectFailed
  | reconnected
  | reconnectFailed

structure Machine where
  phase : Phase
  relayed : ℕ
  received : List SosEnvelope

def start : Machine := ⟨.waiting,0,[]⟩

/-- The next envelope of the event, or the select again. -/
def sendNext : List SosEnvelope → Phase
  | [] => .waiting
  | e::rest => .sending e rest

def afterEvent (event : StatsEvent) : Phase :=
  match translateStatsEvent event with
  | .ok envelopes => sendNext envelopes
  | .error _ => .exited

section Step

variable (maxEvents : Option ℕ)

def step (m : Machine) (o : Occurrence) : Option Machine :=
  match m.phase, o with
  | .waiting, .nextEvent (.ok (some event)) => some {m with phase := afterEvent event}
  | .waiting, .nextEvent (.ok none) => some {m with phase := .reconnecting 10}
  | .waiting, .nextEvent (.error _) => some {m with phase := .reconnecting 10}
  | .waiting, .shutdown => some {m with phase := .exited}
  | .sending e rest, .sent =>
    some ⟨if maxEvents.any (fun max => decide (max ≤ m.relayed+1)) = true then .exited
      else sendNext rest,m.relayed+1,m.received++[e]⟩
  | .sending e rest, .sendFailed => some {m with phase := .connecting e rest}
  | .connecting e rest, .connected => some {m with phase := .sending e rest}
  | .connecting e rest, .connectFailed => some {m with phase := .connecting e rest}
  | .reconnecting (_+1), .reconnected => some {m with phase := .waiting}
  | .reconnecting (left+1), .reconnectFailed =>
    some {m with phase := if left = 0 then .exited else .reconnecting left}
  | _, _ => none

end Step

/-! ## What every run keeps -/

def returned : List Occurrence → List StatsEvent
  | [] => []
  | .nextEvent (.ok (some event))::os => event::returned os
  | _::os => returned os

/-- The envelopes of the current event that are still to be sent. -/
def held : Phase → List SosEnvelope
  | .sending e rest => e::rest
  | .connecting e rest => e::rest
  | _ => []

theorem returned_append (os os' : List Occurrence) :
    returned (os++os') = returned os++returned os' := by
  induction os with
  | nil => rfl
  | cons o os ih =>
    cases o with
    | nextEvent r =>
      cases r with
      | error e => exact ih
      | ok x =>
        cases x with
        | none => exact ih
        | some event => exact congrArg (event::·) ih
    | _ => exact ih

theorem held_sendNext (envelopes : List SosEnvelope) :
    held (sendNext envelopes) = envelopes := by
  cases envelopes <;> rfl

theorem afterEvent_eq (event : StatsEvent) : afterEvent event = sendNext (translation event) := by
  rw [afterEvent, translateStatsEvent_eq]

/-- Delivered and held envelopes are the translations of the events so far. -/
def Accounted (past : List Occurrence) (m : Machine) : Prop :=
  m.received++held m.phase = (returned past).flatMap translation

theorem step_accounted (past : List Occurrence) (m : Machine) (o : Occurrence) (m' : Machine)
    (hm : Accounted past m) (h : step none m o = some m') : Accounted (past++[o]) m' := by
  unfold Accounted at hm ⊢
  rw [returned_append, List.flatMap_append, ← hm]
  unfold step at h
  split at h
  all_goals cases h
  case h_1 event hp =>
    rw [hp, afterEvent_eq, held_sendNext]
    simp [held, returned]
  case h_5 e rest hp =>
    rw [hp, Option.any_none, if_neg Bool.false_ne_true, held_sendNext]
    simp [held, returned]
  case h_10 left hp =>
    have hheld : held (if left = 0 then .exited else .reconnecting left) = [] := by
      split_ifs <;> rfl
    rw [hp, hheld]
    simp [held, returned]
  all_goals
    next hp => simp [hp, held, returned]

/-- Whatever the order of the occurrences: nothing is lost, repeated or
exchanged. -/
theorem run_accounted (os : List Occurrence) (m : Machine) (h : run (step none) start os = some m) :
    Accounted os m := run_history (step none) Accounted step_accounted [] os start m rfl h

/-! ## Every pattern of failures comes to an end -/

/-- The failed sends of an envelope, each with the attempts to connect that
fail before one succeeds. -/
def sendScript (failures : List ℕ) : List Occurrence :=
  failures.flatMap (fun n => .sendFailed::(List.replicate n .connectFailed++[.connected]))++[.sent]

def forwardScript : List SosEnvelope → List (List ℕ) → List Occurrence
  | [], _ => []
  | _::envelopes, failures => sendScript (failures.headD [])++forwardScript envelopes failures.tail

inductive Turn where
  | forward (event : StatsEvent) (failures : List (List ℕ))
  | gap (r : Outcome (Option StatsEvent)) (failed : ℕ)

def Turn.occurrences : Turn → List Occurrence
  | .forward event failures =>
    .nextEvent (.ok (some event))::forwardScript (translation event) failures
  | .gap r failed => .nextEvent r::(List.replicate failed .reconnectFailed++[.reconnected])

def Turn.events : Turn → List StatsEvent
  | .forward event _ => [event]
  | .gap _ _ => []

/-- A gap ends within the ten attempts to reconnect. -/
def Turn.Successful : Turn → Prop
  | .forward _ _ => True
  | .gap r failed => (∀ event, r ≠ .ok (some event)) ∧ failed < 10

section Scripts

variable (maxEvents : Option ℕ) (e : SosEnvelope) (rest : List SosEnvelope) (n : ℕ)
  (received : List SosEnvelope)

theorem connect_script (k : ℕ) :
    run (step maxEvents) ⟨.connecting e rest,n,received⟩
      (List.replicate k .connectFailed++[.connected]) = some ⟨.sending e rest,n,received⟩ := by
  induction k with
  | zero => rfl
  | succ k ih => exact ih

theorem send_script (failures : List ℕ) :
    run (step none) ⟨.sending e rest,n,received⟩ (sendScript failures) =
      some ⟨sendNext rest,n+1,received++[e]⟩ := by
  induction failures with
  | nil => rfl
  | cons k failures ih =>
    have hfail : run (step none) ⟨.sending e rest,n,received⟩
        (.sendFailed::(List.replicate k .connectFailed++[.connected])) =
          some ⟨.sending e rest,n,received⟩ := connect_script none e rest n received k
    have hscript : sendScript (k::failures) =
        (.sendFailed::(List.replicate k .connectFailed++[.connected]))++sendScript failures := by
      simp [sendScript]
    rw [hscript]
    exact run_trans (step none) _ _ _ _ _ hfail ih

theorem forward_script (envelopes : List SosEnvelope) (failures : List (List ℕ)) :
    run (step none) ⟨sendNext envelopes,n,received⟩ (forwardScript envelopes failures) =
      some ⟨.waiting,n+envelopes.length,received++envelopes⟩ := by
  induction envelopes generalizing n received failures with
  | nil => simp [forwardScript, sendNext]
  | cons e envelopes ih =>
    have hrest := ih (n+1) (received++[e]) failures.tail
    rw [forwardScript]
    rw [List.append_assoc, Nat.add_assoc, Nat.add_comm 1] at hrest
    exact run_trans (step none) _ _ _ _ _ (send_script e envelopes n received _) hrest

theorem reconnect_script (left failed : ℕ) (h : failed ≤ left) :
    run (step maxEvents) ⟨.reconnecting (left+1),n,received⟩
      (List.replicate failed .reconnectFailed++[.reconnected]) = some ⟨.waiting,n,received⟩ := by
  induction failed generalizing left with
  | zero => rfl
  | succ failed ih =>
    obtain ⟨left,rfl⟩ : ∃ k, left = k+1 := ⟨left-1,by omega⟩
    exact ih left (by omega)

theorem turn_script (t : Turn) (ht : t.Successful) :
    ∃ m, run (step none) ⟨.waiting,n,received⟩ t.occurrences =
        some ⟨.waiting,m,received++t.events.flatMap translation⟩ := by
  cases t with
  | forward event failures =>
    refine ⟨n+(translation event).length,?_⟩
    have hstep : step none ⟨.waiting,n,received⟩ (.nextEvent (.ok (some event))) =
        some ⟨sendNext (translation event),n,received⟩ := by
      rw [← afterEvent_eq]
      rfl
    rw [Turn.occurrences, run_cons _ _ _ _ _ hstep, forward_script]
    simp [Turn.events]
  | gap r failed =>
    have hstep : step none ⟨.waiting,n,received⟩ (.nextEvent r) =
        some ⟨.reconnecting 10,n,received⟩ := by
      cases r with
      | error error => rfl
      | ok x =>
        cases x with
        | none => rfl
        | some event => exact absurd rfl (ht.1 event)
    refine ⟨n,?_⟩
    rw [Turn.occurrences, run_cons _ _ _ _ _ hstep,
      reconnect_script none n received 9 failed (Nat.le_of_lt_succ ht.2)]
    simp [Turn.events]

theorem turns_script (turns : List Turn) (ht : ∀ t ∈ turns, t.Successful) :
    ∃ m, run (step none) ⟨.waiting,n,received⟩ (turns.flatMap Turn.occurrences) =
        some ⟨.waiting,m,received++(turns.flatMap Turn.events).flatMap translation⟩ := by
  induction turns generalizing n received with
  | nil => exact ⟨n,by simp⟩
  | cons t turns ih =>
    obtain ⟨k,hk⟩ := turn_script n received t (ht t (by simp))
    obtain ⟨m,hm⟩ := ih k (received++t.events.flatMap translation)
      (fun u hu => ht u (by simp [hu]))
    refine ⟨m,?_⟩
    rw [List.flatMap_cons, List.flatMap_cons, List.flatMap_append, ← List.append_assoc]
    exact run_trans (step none) _ _ _ _ _ hk hm

end Scripts

/-- In every run the envelopes delivered are a prefix of the translations of
the events returned, and all of them when none is held; and every script of
events, failed sends, failed connections and gaps leads back to the select
with everything delivered. -/
theorem envelopes_delivered :
    (∀ os m, run (step none) start os = some m →
      m.received <+: (returned os).flatMap translation ∧
      (held m.phase = [] → m.received = (returned os).flatMap translation)) ∧
    ∀ turns : List Turn, (∀ t ∈ turns, t.Successful) →
      ∃ m, run (step none) start (turns.flatMap Turn.occurrences) = some m ∧
        m.phase = .waiting ∧
        m.received = (turns.flatMap Turn.events).flatMap translation := by
  constructor
  · intro os m h
    have hm : m.received++held m.phase = (returned os).flatMap translation := run_accounted os m h
    refine ⟨⟨held m.phase,hm⟩,?_⟩
    intro hh
    rwa [hh, List.append_nil] at hm
  · intro turns ht
    obtain ⟨n,hn⟩ := turns_script 0 [] turns ht
    exact ⟨_,hn,rfl,List.nil_append _⟩

/-- A countdown whose halves fail twice and once, after a gap. -/
def countdownTurns : List Turn :=
  [.gap (.ok none) 3,.forward (.countdownBegin ⟨none,[]⟩) [[0,2],[1]]]

theorem countdown_delivered :
    ∃ m, run (step none) start (countdownTurns.flatMap Turn.occurrences) = some m ∧
      m.phase = .waiting ∧
      m.received = (countdownTurns.flatMap Turn.events).flatMap translation :=
  envelopes_delivered.2 countdownTurns (by simp [countdownTurns, Turn.Successful])

/-! ## The loop runs the machine -/

/-- What the lists of outcomes of an overlay make of one envelope. -/
def connectOccurrences : List Bool → List Occurrence
  | [] => [.connected]
  | true::_ => [.connected]
  | false::connects => .connectFailed::connectOccurrences connects

def sendOccurrences : List Bool → List Bool → List Occurrence
  | [], _ => [.sent]
  | true::_, _ => [.sent]
  | false::sends, connects =>
    .sendFailed::(connectOccurrences connects++sendOccurrences sends (connectWsWithRetry connects))

def exitPhase : Option Exit → Phase
  | none => .waiting
  | some _ => .exited

section Loop

variable {σ : Type} (S : Source σ) (maxEvents : Option ℕ)

/-- The machine after some turns of the loop. -/
def machineOf (r : Option Exit × World σ Overlay) : Machine :=
  ⟨exitPhase r.1,r.2.relayed,r.2.sink.received⟩

theorem connect_simulated (e : SosEnvelope) (rest : List SosEnvelope) (n : ℕ)
    (received : List SosEnvelope) (connects : List Bool) :
    run (step maxEvents) ⟨.connecting e rest,n,received⟩ (connectOccurrences connects) =
      some ⟨.sending e rest,n,received⟩ := by
  induction connects with
  | nil => rfl
  | cons connected connects ih =>
    cases connected with
    | true => rfl
    | false => exact ih

theorem send_simulated (e : SosEnvelope) (rest : List SosEnvelope) (n : ℕ)
    (received : List SosEnvelope) (sends connects : List Bool) :
    run (step maxEvents) ⟨.sending e rest,n,received⟩ (sendOccurrences sends connects) =
      step maxEvents ⟨.sending e rest,n,received⟩ .sent := by
  induction sends generalizing connects with
  | nil => rfl
  | cons sent sends ih =>
    cases sent with
    | true => rfl
    | false =>
      rw [← ih (connectWsWithRetry connects)]
      change run (step maxEvents) ⟨.connecting e rest,n,received⟩
        (connectOccurrences connects++_) = _
      rw [run_append, connect_simulated]
      rfl

theorem forward_simulated (envelopes : List SosEnvelope) (n : ℕ) (o : Overlay) :
    ∃ os, run (step maxEvents) ⟨sendNext envelopes,n,o.received⟩ os =
      some ⟨exitPhase (forward relaySink maxEvents envelopes n o).1,
        (forward relaySink maxEvents envelopes n o).2.1,
        (forward relaySink maxEvents envelopes n o).2.2.received⟩ := by
  induction envelopes generalizing n o with
  | nil => exact ⟨[],rfl⟩
  | cons e envelopes ih =>
    have hreceived : (relaySink.send o e).received = o.received++[e] :=
      sendEnvelopeWithRetry_received e o.received o.sends o.connects
    have hsend := send_simulated maxEvents e envelopes n o.received o.sends o.connects
    simp only [forward, step] at hsend ⊢
    split_ifs at hsend ⊢ with hmax
    · exact ⟨sendOccurrences o.sends o.connects,by rw [sendNext, hsend, hreceived]; rfl⟩
    · obtain ⟨os,hos⟩ := ih (n+1) (relaySink.send o e)
      rw [hreceived] at hos
      exact ⟨_,run_trans _ _ _ _ _ _ hsend hos⟩

theorem reconnect_simulated (n : ℕ) (last : Option RlStatsError) (s : σ) (relayed : ℕ)
    (received : List SosEnvelope) :
    ∃ os, run (step maxEvents) ⟨.reconnecting (n+1),relayed,received⟩ os =
      some ⟨match (reconnectRlWithBackoff S (n+1) last s).1 with
        | .ok _ => .waiting
        | .error _ => .exited,relayed,received⟩ := by
  induction n generalizing last s with
  | zero =>
    rw [reconnectRlWithBackoff]
    cases S.reconnect s with
    | mk result s =>
      cases result with
      | ok u => exact ⟨[.reconnected],rfl⟩
      | error e => exact ⟨[.reconnectFailed],rfl⟩
  | succ n ih =>
    rw [reconnectRlWithBackoff]
    cases S.reconnect s with
    | mk result s =>
      cases result with
      | ok u => exact ⟨[.reconnected],rfl⟩
      | error e =>
        obtain ⟨os,hos⟩ := ih (some e) s
        exact ⟨.reconnectFailed::os,hos⟩

theorem afterReconnect_simulated (w : World σ Overlay) :
    ∃ os, run (step maxEvents) ⟨.reconnecting 10,w.relayed,w.sink.received⟩ os =
      some (machineOf (afterReconnect S w)) := by
  obtain ⟨os,hos⟩ := reconnect_simulated S maxEvents 9 none w.source w.relayed w.sink.received
  refine ⟨os,?_⟩
  rw [hos, afterReconnect]
  cases reconnectRlWithBackoff S 10 none w.source with
  | mk result s => cases result <;> rfl

theorem turn_simulated (w : World σ Overlay) :
    ∃ os, run (step maxEvents) (machineOf (none,w)) os =
      some (machineOf (turn S relaySink maxEvents w)) := by
  unfold turn
  split
  · exact ⟨[.shutdown],rfl⟩
  · next event s _ =>
    rw [translateStatsEvent_eq]
    obtain ⟨os,hos⟩ := forward_simulated maxEvents (translation event) w.relayed w.sink
    refine ⟨.nextEvent (.ok (some event))::os,?_⟩
    rw [← afterEvent_eq] at hos
    exact hos
  · next s _ =>
    obtain ⟨os,hos⟩ := afterReconnect_simulated S maxEvents {w with source := s}
    exact ⟨.nextEvent (.ok none)::os,hos⟩
  · next e s _ =>
    obtain ⟨os,hos⟩ := afterReconnect_simulated S maxEvents {w with source := s}
    exact ⟨.nextEvent (.error e)::os,hos⟩

/-- The turns of the relay's main loop are a run of the machine. -/
theorem mainLoop_simulated (k : ℕ) (w : World σ Overlay) :
    ∃ os, run (step maxEvents) (machineOf (none,w)) os =
      some (machineOf (mainLoop S relaySink maxEvents k w)) := by
  induction k generalizing w with
  | zero => exact ⟨[],rfl⟩
  | succ k ih =>
    obtain ⟨os,hos⟩ := turn_simulated S maxEvents w
    rw [mainLoop]
    cases hw : turn S relaySink maxEvents w with
    | mk exit v =>
      rw [hw] at hos
      cases exit with
      | some exit => exact ⟨os,hos⟩
      | none =>
        obtain ⟨os',hos'⟩ := ih v
        exact ⟨os++os',run_trans _ _ _ _ _ _ hos hos'⟩

end Loop

end RlStatsApi.OverlayDelivery
