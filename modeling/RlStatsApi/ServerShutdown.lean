import RlStatsApi.BroadcastServer

/-!
# Shutting the broadcast server down

Once the main task signals the shutdown, or is gone, nothing more is offered.
The steps that are left are bounded by what the handlers still have to do. The
main task and the accept loop come to their end without the clients. A handler
may then be left that waits for its own client, in the handshake or for its
socket to take what is written, and for nothing else.
-/

set_option autoImplicit false

namespace RlStatsApi.ServerShutdown
open RlStatsApi.BoundedBroadcast RlStatsApi.LabelledRuns RlStatsApi.RelayLoop
open RlStatsApi.SosTranslation RlStatsApi.OverlayClients RlStatsApi.BroadcastServer

/-! ## What is left to do -/

def total {β : Type} (f : β → ℕ) : List β → ℕ
  | [] => 0
  | x::l => f x+total f l

theorem total_set {β : Type} (f : β → ℕ) (l : List β) (i : ℕ) (x y : β) (hx : l[i]? = some x)
    (hy : f y < f x) : total f (l.set i y) < total f l := by
  induction l generalizing i with
  | nil => cases hx
  | cons z l ih =>
    cases i with
    | zero =>
      cases hx
      exact Nat.add_lt_add_right hy _
    | succ i => exact Nat.add_lt_add_left (ih i hx) _

def phaseWeight : Phase → ℕ
  | .handshake => 3
  | .serving => 2
  | .writing _ => 3
  | .ponging => 3
  | .closing => 1
  | .over => 0

/-- The steps of a handler up to its end, two of them for each payload that
it may still receive. -/
def clientWeight (ch : Channel String) (c : Client) : ℕ :=
  match c.phase with
  | .over => 0
  | p => phaseWeight p+2*(ch.log.length-c.receiver.next)

def joinWeight : MainPhase → ℕ
  | .joining => 1
  | _ => 0

def weight (s : System Main) : ℕ :=
  total (clientWeight s.server.outgoing) s.server.clients+s.server.accepting.toNat+
    joinWeight s.main.phase

/-- Acts of clients that the shutdown does not wait for: they connect, or
send a message. -/
def fromClients {ι : Type} : Act ι → Bool
  | .task .accept => true
  | .task .acceptFailed => true
  | .task (.client _ .ping) => true
  | .task (.client _ .message) => true
  | _ => false

/-- Neither a failure nor a client's doing, and not awaited from a socket. -/
def prompt {ι : Type} : Act ι → Bool
  | .main _ => true
  | .task .acceptStopped => true
  | .task (.client _ .shutdownChanged) => true
  | _ => false

/-- Where a handler waits for its client, without a timeout: in the handshake,
and for the socket to take a payload, a pong or the end. -/
def onSocket : Phase → Bool
  | .handshake => true
  | .writing _ => true
  | .ponging => true
  | .closing => true
  | _ => false

/-- The ends of these waits. -/
def fromSocket : ClientAct → Bool
  | .upgraded => true
  | .refused => true
  | .sent => true
  | .sendFailed => true
  | .pongSent => true
  | .pongFailed => true
  | .closed => true
  | _ => false

theorem clientWeight_open (ch : Channel String) (c : Client) (h : c.phase ≠ .over) :
    clientWeight ch c = phaseWeight c.phase+2*(ch.log.length-c.receiver.next) := by
  unfold clientWeight
  split
  · next ho => exact absurd ho h
  · rfl

theorem clientWeight_le (ch : Channel String) (c : Client) :
    clientWeight ch c ≤ phaseWeight c.phase+2*(ch.log.length-c.receiver.next) := by
  unfold clientWeight
  split
  · exact Nat.zero_le _
  · exact Nat.le_refl _

theorem move_weight (stopping : Bool) (p : Phase) (a : ClientAct) (p' : Phase)
    (h : p.move stopping a = some p') (hping : a ≠ .ping) (hmessage : a ≠ .message) :
    phaseWeight p' < phaseWeight p := by
  unfold Phase.move at h
  split at h <;> try split_ifs at h
  all_goals cases h
  all_goals first | exact absurd rfl hping | exact absurd rfl hmessage | simp [phaseWeight]

theorem client_step_weight (capacity : ℕ) (s : Server) (c : Client) (a : ClientAct) (c' : Client)
    (h : c.step capacity s a = some c') (hping : a ≠ .ping) (hmessage : a ≠ .message) :
    clientWeight s.outgoing c' < clientWeight s.outgoing c := by
  have hle := clientWeight_le s.outgoing c'
  cases client_step_cases capacity s c a c' h with
  | moved _ p hp =>
    have hlt := move_weight _ _ _ _ hp hping hmessage
    rw [clientWeight_open s.outgoing c (move_over _ _ _ _ hp)]
    exact lt_of_le_of_lt hle (Nat.add_lt_add_right hlt _)
  | received x next hphase hx =>
    rw [clientWeight_open s.outgoing c (by rw [hphase]; exact Phase.noConfusion), hphase]
    refine lt_of_le_of_lt hle ?_
    change phaseWeight (afterReceived x)+2*(s.outgoing.log.length-next) <
      2+2*(s.outgoing.log.length-c.receiver.next)
    cases hx with
    | value b hheld hb =>
      have hlt := (List.getElem?_eq_some_iff.mp hb).1
      simp only [afterReceived, phaseWeight]
      omega
    | lagged k behind hk =>
      simp only [afterReceived, phaseWeight]
      omega
    | closed drained hclosed =>
      simp only [afterReceived, phaseWeight]
      omega
  | sent payload hphase =>
    rw [clientWeight_open s.outgoing c (by rw [hphase]; exact Phase.noConfusion), hphase]
    exact lt_of_le_of_lt hle (Nat.add_lt_add_right (Nat.lt_succ_self 2) _)

/-! ## After the signal -/

/-- The main task has signalled, and has at most to join the accept loop. -/
structure Winding (s : System Main) : Prop where
  stopping : s.server.stopping = true
  main : s.main.phase = .joining ∨ s.main.phase = .over

/-- Every task has come to its end. -/
structure Ended (s : System Main) : Prop where
  main : s.main.phase = .over
  accepting : s.server.accepting = false
  handlers : ∀ c ∈ s.server.clients, c.phase = .over

section Runs

variable (maxEvents : Option ℕ) (write : SosEnvelope → String) (capacity : ℕ)

theorem run_winding (acts : List (Act Occurrence)) (s : System Main)
    (h : Runs maxEvents write capacity acts s) (hs : s.server.stopping = true) : Winding s := by
  obtain ⟨emitted,hp,ha⟩ := run_accounted maxEvents write capacity acts s h
  exact ⟨hs,ha.signalled (by rw [← hp.stopping]; exact hs)⟩

variable (s : System Main) (a : Act Occurrence) (s' : System Main)

/-- After the signal the main task joins the accept loop, and no more. -/
theorem winding_main (o : Occurrence) (m : Main) (act : Option MainAct)
    (hm : s.main.phase = .joining ∨ s.main.phase = .over)
    (h : mainTask maxEvents write s.main o = some (m,act)) :
    s.main.phase = .joining ∧ m.phase = .over ∧ act = some .join := by
  rcases hm with hphase | hphase
  · cases o with
    | joined =>
      simp only [mainTask, hphase] at h
      cases h
      exact ⟨hphase,rfl,rfl⟩
    | _ => simp [mainTask, hphase] at h
  · cases o <;> simp [mainTask, hphase] at h

theorem step_winding (hs : Winding s)
    (h : step (mainTask maxEvents write) capacity s a = some s') :
    Winding s' ∧ s'.server.outgoing = s.server.outgoing := by
  cases step_cases (mainTask maxEvents write) capacity s a s' h with
  | quiet o m hm =>
    obtain ⟨_,_,hact⟩ := winding_main maxEvents write s o m none hs.main hm
    cases hact
  | acted o m act server hm ha =>
    obtain ⟨_,hover,hact⟩ := winding_main maxEvents write s o m _ hs.main hm
    cases hact
    simp only [Server.mainStep] at ha
    split_ifs at ha
    cases ha
    exact ⟨⟨by simp [Server.stopping],.inr hover⟩,rfl⟩
  | task act server ha =>
    obtain ⟨houtgoing,hstopping⟩ := server_step_main capacity s.server act server ha
    exact ⟨⟨hstopping.trans hs.stopping,hs.main⟩,houtgoing⟩

theorem server_step_weight (server : Server) (act : TaskAct) (server' : Server)
    (h : server.step capacity act = some server') (hf : fromClients (.task act : Act Unit) = false) :
    total (clientWeight server'.outgoing) server'.clients+server'.accepting.toNat <
      total (clientWeight server.outgoing) server.clients+server.accepting.toNat := by
  cases act with
  | accept => cases hf
  | acceptFailed => cases hf
  | acceptStopped =>
    simp only [Server.step] at h
    split_ifs at h with hc
    cases h
    rw [hc.1]
    exact Nat.lt_succ_self _
  | client i a =>
    obtain ⟨c,hi,h⟩ := Option.bind_eq_some_iff.mp h
    obtain ⟨c',hc',rfl⟩ := Option.map_eq_some_iff.mp h
    have hlt := client_step_weight capacity server c a c' hc' (by rintro rfl; cases hf)
      (by rintro rfl; cases hf)
    exact Nat.add_lt_add_right (total_set _ _ i c c' hi hlt) _

theorem step_weight (hs : Winding s) (h : step (mainTask maxEvents write) capacity s a = some s')
    (hf : fromClients a = false) : weight s' < weight s := by
  cases step_cases (mainTask maxEvents write) capacity s a s' h with
  | quiet o m hm =>
    obtain ⟨_,_,hact⟩ := winding_main maxEvents write s o m none hs.main hm
    cases hact
  | acted o m act server hm ha =>
    obtain ⟨hjoining,hover,hact⟩ := winding_main maxEvents write s o m _ hs.main hm
    cases hact
    simp only [Server.mainStep] at ha
    split_ifs at ha
    cases ha
    unfold weight
    rw [hjoining, hover]
    exact Nat.lt_succ_self _
  | task act server ha =>
    have hf' : fromClients (.task act : Act Unit) = false := by
      cases act with
      | client i a => cases a <;> first | rfl | cases hf
      | _ => first | rfl | cases hf
    exact Nat.add_lt_add_right (server_step_weight capacity s.server act server ha hf') _

/-- Steps that are not the clients' come to an end. -/
theorem run_weight (acts : List (Act Occurrence)) (hs : Winding s)
    (h : run (step (mainTask maxEvents write) capacity) s acts = some s')
    (hf : ∀ a ∈ acts, fromClients a = false) : acts.length+weight s' ≤ weight s := by
  induction acts generalizing s with
  | nil =>
    cases h
    simp
  | cons a acts ih =>
    obtain ⟨t,ht,hrest⟩ := run_cons_some _ s s' a acts h
    have hlt := step_weight maxEvents write capacity s a t hs ht (hf a (by simp))
    have hle := ih t (step_winding maxEvents write capacity s a t hs ht).1 hrest
      (fun b hb => hf b (by simp [hb]))
    rw [List.length_cons]
    omega

theorem client_act_step (i : ℕ) (c c' : Client) (a : ClientAct)
    (hi : s.server.clients[i]? = some c) (hc : c.step capacity s.server a = some c') :
    ∃ s', step (mainTask maxEvents write) capacity s (.task (.client i a)) = some s' :=
  ⟨_,by simp [step, Server.step, hi, hc]; rfl⟩

/-- A handler that waits for its client goes on when the wait ends. -/
theorem waiting_handler_step (i : ℕ) (c : Client) (hi : s.server.clients[i]? = some c)
    (hc : onSocket c.phase = true) : ∃ a s', fromSocket a = true ∧
      step (mainTask maxEvents write) capacity s (.task (.client i a)) = some s' := by
  have hstep := client_act_step maxEvents write capacity s i c
  obtain ⟨p,r,w⟩ := c
  cases p with
  | handshake =>
    obtain ⟨s',hs'⟩ := hstep _ .upgraded hi rfl
    exact ⟨_,s',rfl,hs'⟩
  | writing payload =>
    obtain ⟨s',hs'⟩ := hstep _ .sent hi rfl
    exact ⟨_,s',rfl,hs'⟩
  | ponging =>
    obtain ⟨s',hs'⟩ := hstep _ .pongSent hi rfl
    exact ⟨_,s',rfl,hs'⟩
  | closing =>
    obtain ⟨s',hs'⟩ := hstep _ .closed hi rfl
    exact ⟨_,s',rfl,hs'⟩
  | _ => cases hc

/-- The main task and the accept loop are over, and the handlers that are not
over wait for their clients. -/
structure Waiting (s : System Main) : Prop where
  main : s.main.phase = .over
  accepting : s.server.accepting = false
  handlers : ∀ c ∈ s.server.clients, c.phase ≠ .over → onSocket c.phase = true

/-- Until everything is over something can go on without the clients, or only
handlers are left that wait for them. -/
theorem not_stuck (hs : Winding s) :
    (∃ a s', prompt a = true ∧ step (mainTask maxEvents write) capacity s a = some s') ∨
      Waiting s := by
  by_cases hc : ∃ c ∈ s.server.clients, c.phase = .serving
  · obtain ⟨c,hmem,hc⟩ := hc
    obtain ⟨i,hi⟩ := List.mem_iff_getElem?.mp hmem
    obtain ⟨s',hs'⟩ := client_act_step maxEvents write capacity s i c {c with phase := .closing}
      .shutdownChanged hi (by simp [Client.step, Phase.move, hc, hs.stopping])
    exact .inl ⟨_,s',rfl,hs'⟩
  · by_cases ha : s.server.accepting = true
    · exact .inl ⟨.task .acceptStopped,_,rfl,by simp [step, Server.step, ha, hs.stopping]; rfl⟩
    · rcases hs.main with hm | hm
      · exact .inl ⟨.main .joined,_,rfl,
          by simp [step, mainTask, perform, Server.mainStep, hm, ha]; rfl⟩
      · refine .inr ⟨hm,by simpa using ha,?_⟩
        intro c hmem hover
        have hserving : c.phase ≠ .serving := fun h => hc ⟨c,hmem,h⟩
        cases hp : c.phase with
        | serving => exact absurd hp hserving
        | handshake | writing _ | ponging | closing => rfl
        | _ => exact absurd hp hover

theorem wound_run (acts : List (Act Occurrence)) (hs : Winding s)
    (h : run (step (mainTask maxEvents write) capacity) s acts = some s') :
    Winding s' ∧ s'.server.outgoing = s.server.outgoing :=
  run_invariant (step (mainTask maxEvents write) capacity)
    (fun t => Winding t ∧ t.server.outgoing = s.server.outgoing)
    (fun t a u ht hu =>
      have hstep := step_winding maxEvents write capacity t a u ht.1 hu
      ⟨hstep.1,hstep.2.trans ht.2⟩) acts s s' ⟨hs,rfl⟩ h

theorem ended_count (server : Server) (hk : server.Kept capacity)
    (hc : ∀ c ∈ server.clients, c.phase = .over) : server.clientCount = 0 := by
  rw [hk.count, List.countP_eq_zero]
  intro c hmem
  rw [connected, hc c hmem]
  exact Bool.noConfusion

/-- From any state of a run in which the main task has signalled or gone:
nothing more is offered; without new connections and messages only as many
steps are left as the weight says; and as long as not everything is over, a
step can follow that is no failure and waits for no client, or the handlers
that are left wait for their own clients, each with an end of its wait that
can follow. When everything is over the count of clients is 0. -/
theorem shutdown_completes (acts : List (Act Occurrence)) (s : System Main)
    (h : Runs maxEvents write capacity acts s) (hs : s.server.stopping = true) :
    ∀ more s', run (step (mainTask maxEvents write) capacity) s more = some s' →
      s'.server.outgoing.offered = s.server.outgoing.offered ∧
      ((∀ a ∈ more, fromClients a = false) → more.length+weight s' ≤ weight s) ∧
      ((Ended s' ∧ s'.server.clientCount = 0) ∨
        (∃ a s'', prompt a = true ∧
          step (mainTask maxEvents write) capacity s' a = some s'') ∨
        (Waiting s' ∧ ∀ i c, s'.server.clients[i]? = some c → c.phase ≠ .over →
          ∃ a s'', fromSocket a = true ∧
            step (mainTask maxEvents write) capacity s' (.task (.client i a)) = some s'')) := by
  intro more s' hmore
  have hwinding := run_winding maxEvents write capacity acts s h hs
  obtain ⟨hwound,houtgoing⟩ := wound_run maxEvents write capacity s s' more hwinding hmore
  refine ⟨by rw [houtgoing],run_weight maxEvents write capacity s s' more hwinding hmore,?_⟩
  by_cases he : Ended s'
  · refine .inl ⟨he,ended_count capacity s'.server ?_ he.handlers⟩
    exact run_kept (mainTask maxEvents write) capacity .start (acts++more) s'
      (run_trans _ _ _ _ _ _ h hmore)
  · rcases not_stuck maxEvents write capacity s' hwound with hprompt | hwaiting
    · exact .inr (.inl hprompt)
    · refine .inr (.inr ⟨hwaiting,fun i c hi hover => ?_⟩)
      exact waiting_handler_step maxEvents write capacity s' i c hi
        (hwaiting.handlers c (List.mem_of_getElem? hi) hover)

end Runs

/-- The signal comes while a payload is being written. -/
def interrupted : List (Act Occurrence) :=
  [.task .accept,.task (.client 0 .upgraded),
   .main (.nextEvent (.ok (some (.countdownBegin ⟨none,[]⟩)))),.main .forwarded,
   .task (.client 0 .recv),.main .forwarded,.main .signal,.main .shutdownSent]

theorem interrupted_completes : ∃ s, Runs none SosEnvelope.event 1024 interrupted s ∧
    s.server.stopping = true ∧ weight s = 7 ∧
    ∀ more s', run (step (mainTask none SosEnvelope.event) 1024) s more = some s' →
      s'.server.outgoing.offered = s.server.outgoing.offered ∧
      ((∀ a ∈ more, fromClients a = false) → more.length+weight s' ≤ weight s) ∧
      ((Ended s' ∧ s'.server.clientCount = 0) ∨
        (∃ a s'', prompt a = true ∧
          step (mainTask none SosEnvelope.event) 1024 s' a = some s'') ∨
        (Waiting s' ∧ ∀ i c, s'.server.clients[i]? = some c → c.phase ≠ .over →
          ∃ a s'', fromSocket a = true ∧
            step (mainTask none SosEnvelope.event) 1024 s' (.task (.client i a)) = some s'')) :=
  ⟨_,rfl,rfl,rfl,shutdown_completes none SosEnvelope.event 1024 interrupted _ rfl rfl⟩

/-- The main task and the accept loop end while the payload is being written. -/
example : ((run (step (mainTask none SosEnvelope.event) 1024) ⟨.start,.new⟩
    (interrupted++[.task .acceptStopped,.main .joined])).map
      (fun s => s.server.clients.map (fun c => c.phase))) =
    some [.writing "game:pre_countdown_begin"] := rfl

end RlStatsApi.ServerShutdown
