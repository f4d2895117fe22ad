import RlStatsApi.BoundedBroadcast
import RlStatsApi.LabelledRuns

/-!
# Serving overlay clients

The tasks of a broadcast server: the main task sends payloads to the channel,
the accept loop subscribes a receiver for each connection, and a handler for
each client passes on what its receiver gets until something ends it. The
tasks stop one by one when the main task signals the shutdown or is gone.
Every task may run between any two steps of another. The server is the same
whatever the main task draws its payloads from.
-/

set_option autoImplicit false

namespace RlStatsApi.OverlayClients
open RlStatsApi.BoundedBroadcast RlStatsApi.LabelledRuns

/-! ## Handlers -/

/-- Where a handler waits: for the handshake, at its select, for a write of a
payload or of a pong, for its writer to close, or no more. -/
inductive Phase where
  | handshake
  | serving
  | writing (payload : String)
  | ponging
  | closing
  | over
  deriving DecidableEq

inductive ClientAct where
  | upgraded
  | refused
  | shutdownChanged
  | recv
  | sent
  | sendFailed
  | ping
  | pongSent
  | pongFailed
  | message
  | hangUp
  | closed

structure Client where
  phase : Phase
  receiver : Receiver String
  written : List String

def Phase.move (stopping : Bool) : Phase → ClientAct → Option Phase
  | .handshake, .upgraded => some .serving
  | .handshake, .refused => some .over
  | .serving, .shutdownChanged => if stopping = true then some .closing else none
  | .serving, .ping => some .ponging
  | .ponging, .pongSent => some .serving
  | .ponging, .pongFailed => some .closing
  | .serving, .message => some .serving
  | .serving, .hangUp => some .closing
  | .writing _, .sendFailed => some .closing
  | .closing, .closed => some .over
  | _, _ => none

def afterReceived : Received String → Phase
  | .value payload => .writing payload
  | .lagged _ => .serving
  | .closed => .closing

def Client.receive (c : Client) (r : Received String × ℕ) : Client :=
  {c with phase := afterReceived r.1, receiver := c.receiver.record r.1 r.2}

/-- The handlers that have counted their client up and not yet down. -/
def Phase.counted : Phase → Bool
  | .handshake => false
  | .over => false
  | _ => true

/-- The atomic counter, which handlers change after the handshake and last. -/
def ClientAct.recount : ClientAct → ℕ → ℕ
  | .upgraded, n => n+1
  | .closed, n => n-1
  | _, n => n

/-! ## The server -/

/-- `running` until the main task returns, which drops its two senders. -/
structure Server where
  outgoing : Channel String
  shutdown : Bool
  running : Bool
  accepting : Bool
  clientCount : ℕ
  clients : List Client

def Server.new : Server := ⟨.new,false,true,true,0,[]⟩

section Server

variable (s : Server)

/-- The receivers of the watch channel see a change. -/
def Server.stopping : Bool := s.shutdown || !s.running

/-- Both senders of the broadcast channel are gone. -/
def Server.closed : Bool := !s.running && !s.accepting

def Server.receivers : ℕ := s.clients.countP (fun c => decide (c.phase ≠ .over))

end Server

def Client.step (capacity : ℕ) (s : Server) (c : Client) : ClientAct → Option Client
  | .recv =>
    match c.phase with
    | .serving => (s.outgoing.poll capacity s.closed c.receiver.next).map c.receive
    | _ => none
  | .sent =>
    match c.phase with
    | .writing payload => some {c with phase := .serving, written := c.written++[payload]}
    | _ => none
  | a => (c.phase.move s.stopping a).map (fun p => {c with phase := p})

inductive TaskAct where
  | accept
  | acceptFailed
  | acceptStopped
  | client (i : ℕ) (a : ClientAct)

def Server.step (capacity : ℕ) (s : Server) : TaskAct → Option Server
  | .accept =>
    if s.accepting = true then
      some {s with clients := s.clients++[⟨.handshake,s.outgoing.subscribe,[]⟩]}
    else none
  | .acceptFailed => if s.accepting = true then some s else none
  | .acceptStopped =>
    if s.accepting = true ∧ s.stopping = true then some {s with accepting := false} else none
  | .client i a =>
    s.clients[i]?.bind (fun c => (c.step capacity s a).map (fun c' =>
      {s with clientCount := a.recount s.clientCount, clients := s.clients.set i c'}))

/-- What the main task does to the server: it sends a payload, signals the
shutdown, returns after it has joined the accept loop, or fails. -/
inductive MainAct where
  | send (payload : String)
  | shutdown
  | join
  | fail

def Server.mainStep (s : Server) : MainAct → Option Server
  | .send payload => some {s with outgoing := s.outgoing.send s.receivers payload}
  | .shutdown => some {s with shutdown := true}
  | .join => if s.accepting = true then none else some {s with running := false}
  | .fail => some {s with running := false}

/-! ## What a handler does -/

inductive ClientStepped (capacity : ℕ) (s : Server) (c : Client) : ClientAct → Client → Prop
  | moved (a : ClientAct) (p : Phase) (hp : c.phase.move s.stopping a = some p) :
      ClientStepped capacity s c a {c with phase := p}
  | received (x : Received String) (next : ℕ) (hc : c.phase = .serving)
      (hx : Polled s.outgoing capacity s.closed c.receiver.next x next) :
      ClientStepped capacity s c .recv (c.receive (x,next))
  | sent (payload : String) (hc : c.phase = .writing payload) :
      ClientStepped capacity s c .sent
        {c with phase := .serving, written := c.written++[payload]}

theorem client_step_cases (capacity : ℕ) (s : Server) (c : Client) (a : ClientAct) (c' : Client)
    (h : c.step capacity s a = some c') : ClientStepped capacity s c a c' := by
  cases a with
  | recv =>
    simp only [Client.step] at h
    split at h
    · next hc =>
      obtain ⟨⟨x,next⟩,hx,rfl⟩ := Option.map_eq_some_iff.mp h
      exact .received x next hc (poll_cases _ _ _ _ _ _ hx)
    · cases h
  | sent =>
    simp only [Client.step] at h
    split at h
    · next payload hc =>
      cases h
      exact .sent payload hc
    · cases h
  | _ =>
    obtain ⟨p,hp,rfl⟩ := Option.map_eq_some_iff.mp h
    exact .moved _ p hp

/-- The payload a handler has received and not yet written. -/
def held : Phase → List String
  | .writing payload => [payload]
  | _ => []

def ended : Phase → Bool
  | .closing => true
  | .over => true
  | _ => false

theorem move_held (stopping : Bool) (p : Phase) (a : ClientAct) (p' : Phase)
    (h : p.move stopping a = some p') (he : ended p' = false) : held p = [] ∧ held p' = [] := by
  unfold Phase.move at h
  split at h <;> try split_ifs at h
  all_goals cases h
  all_goals first | exact ⟨rfl,rfl⟩ | cases he

theorem move_ended (stopping : Bool) (p : Phase) (a : ClientAct) (p' : Phase)
    (h : p.move stopping a = some p') (he : ended p = true) : ended p' = true := by
  unfold Phase.move at h
  split at h <;> try split_ifs at h
  all_goals cases h
  all_goals first | rfl | cases he

theorem move_over (stopping : Bool) (p : Phase) (a : ClientAct) (p' : Phase)
    (h : p.move stopping a = some p') : p ≠ .over := by
  rintro rfl
  cases a <;> cases h

theorem move_counted (stopping : Bool) (p : Phase) (a : ClientAct) (p' : Phase)
    (h : p.move stopping a = some p') (n : ℕ) :
    a.recount (n+p.counted.toNat) = n+p'.counted.toNat := by
  unfold Phase.move at h
  split at h <;> try split_ifs at h
  all_goals cases h
  all_goals rfl

theorem move_closed (stopping : Bool) (p p' : Phase) (h : p.move stopping .closed = some p') :
    p = .closing ∧ p' = .over := by
  cases p <;> cases h
  exact ⟨rfl,rfl⟩

/-! ## What every handler keeps -/

/-- What is written is what was received, but for the payload at hand or the
one whose write failed; and missing payloads are reported only after more
than the capacity were offered. -/
structure Client.Kept (capacity : ℕ) (ch : Channel String) (c : Client) : Prop where
  subscribed : c.phase ≠ .over → c.receiver.Subscribed ch
  follows : Follows ch.offered c.receiver.first c.receiver.history
  wrote : ∃ unwritten, values c.receiver.history = c.written++unwritten ∧
    unwritten.length ≤ 1 ∧ (ended c.phase = false → unwritten = held c.phase)
  lag : skipped c.receiver.history ≠ 0 → c.receiver.first+capacity < ch.offered.length

section Clients

variable (capacity : ℕ) (s : Server) (c : Client)

theorem accepted_kept (ch : Channel String) :
    Client.Kept capacity ch ⟨.handshake,ch.subscribe,[]⟩ where
  subscribed _ := subscribe_subscribed ch
  follows := trivial
  wrote := ⟨[],rfl,Nat.zero_le 1,fun _ => rfl⟩
  lag h := absurd rfl h

theorem send_kept (ch : Channel String) (receivers : ℕ) (payload : String)
    (hreceivers : c.phase ≠ .over → receivers ≠ 0) (hc : c.Kept capacity ch) :
    c.Kept capacity (ch.send receivers payload) where
  subscribed h := send_subscribed ch c.receiver receivers payload (hreceivers h) (hc.subscribed h)
  follows := by
    rw [send_offered]
    exact follows_grow _ _ _ _ hc.follows
  wrote := hc.wrote
  lag h := by
    have hlag := hc.lag h
    rw [send_offered, List.length_append]
    omega

theorem moved_kept (p : Phase) (a : ClientAct) (hp : c.phase.move s.stopping a = some p)
    (hc : c.Kept capacity s.outgoing) : Client.Kept capacity s.outgoing {c with phase := p} where
  subscribed _ := hc.subscribed (move_over _ _ _ _ hp)
  follows := hc.follows
  wrote := by
    obtain ⟨unwritten,hv,hlen,hheld⟩ := hc.wrote
    refine ⟨unwritten,hv,hlen,?_⟩
    intro he
    obtain ⟨hbefore,hafter⟩ := move_held _ _ _ _ hp he
    have hopen : ended c.phase = false := by
      by_contra hclosed
      have hended := move_ended _ _ _ _ hp (by simpa using hclosed)
      rw [he] at hended
      cases hended
    exact (hheld hopen).trans (hbefore.trans hafter.symm)
  lag := hc.lag

theorem received_kept (x : Received String) (next : ℕ) (hphase : c.phase = .serving)
    (hx : Polled s.outgoing capacity s.closed c.receiver.next x next)
    (hc : c.Kept capacity s.outgoing) :
    Client.Kept capacity s.outgoing (c.receive (x,next)) := by
  have hsub := hc.subscribed (by rw [hphase]; exact Phase.noConfusion)
  obtain ⟨unwritten,hv,_,hheld⟩ := hc.wrote
  rw [hheld (by rw [hphase]; rfl), hphase] at hv
  refine ⟨fun _ => polled_subscribed _ _ _ _ _ _ hx hsub,
    polled_follows _ _ _ _ _ _ hx hsub hc.follows,?_,?_⟩
  · refine ⟨held (afterReceived x),?_,?_,fun _ => rfl⟩
    · change values (c.receiver.history++[x]) = c.written++held (afterReceived x)
      rw [values_append, hv]
      cases x <;> simp [values, held, afterReceived]
    · cases x <;> simp [held, afterReceived]
  · intro hskip
    change c.receiver.first+capacity < s.outgoing.offered.length
    by_cases hold : skipped c.receiver.history = 0
    · cases x with
      | lagged k =>
        have hlag := polled_lag _ _ _ _ _ _ hx hsub
        omega
      | value a =>
        refine absurd ?_ hskip
        change skipped (c.receiver.history++[.value a]) = 0
        rw [skipped_append, hold]
        rfl
      | closed =>
        refine absurd ?_ hskip
        change skipped (c.receiver.history++[.closed]) = 0
        rw [skipped_append, hold]
        rfl
    · exact hc.lag hold

theorem sent_kept (payload : String) (hphase : c.phase = .writing payload)
    (hc : c.Kept capacity s.outgoing) :
    Client.Kept capacity s.outgoing
      {c with phase := .serving, written := c.written++[payload]} where
  subscribed _ := hc.subscribed (by rw [hphase]; exact Phase.noConfusion)
  follows := hc.follows
  wrote := by
    obtain ⟨unwritten,hv,_,hheld⟩ := hc.wrote
    rw [hheld (by rw [hphase]; rfl), hphase] at hv
    exact ⟨[],by simpa [held] using hv,Nat.zero_le 1,fun _ => rfl⟩
  lag := hc.lag

theorem client_step_kept (a : ClientAct) (c' : Client) (h : c.step capacity s a = some c')
    (hc : c.Kept capacity s.outgoing) : c'.Kept capacity s.outgoing := by
  cases client_step_cases capacity s c a c' h with
  | moved _ p hp => exact moved_kept capacity s c p a hp hc
  | received x next hphase hx => exact received_kept capacity s c x next hphase hx hc
  | sent payload hphase => exact sent_kept capacity s c payload hphase hc

theorem client_step_recount (a : ClientAct) (c' : Client) (h : c.step capacity s a = some c')
    (n : ℕ) : a.recount (n+c.phase.counted.toNat) = n+c'.phase.counted.toNat := by
  cases client_step_cases capacity s c a c' h with
  | moved _ p hp => exact move_counted _ _ _ _ hp n
  | received x next hphase hx =>
    rw [hphase]
    cases x <;> rfl
  | sent payload hphase =>
    rw [hphase]
    rfl

end Clients

/-! What that says of the payloads written. -/

section Written

variable (capacity : ℕ) (ch : Channel String) (c : Client) (hc : c.Kept capacity ch)
include hc

theorem kept_received : c.written <+: values c.receiver.history := by
  obtain ⟨unwritten,hv,_,_⟩ := hc.wrote
  exact ⟨unwritten,hv.symm⟩

theorem kept_sublist : c.written.Sublist (ch.offered.drop c.receiver.first) :=
  (kept_received capacity ch c hc).sublist.trans (follows_sublist _ _ _ hc.follows)

theorem kept_unbroken (hs : skipped c.receiver.history = 0) :
    c.written <+: ch.offered.drop c.receiver.first :=
  (kept_received capacity ch c hc).trans (follows_unbroken _ _ _ hc.follows hs)

theorem kept_values (he : ended c.phase = false) :
    values c.receiver.history = c.written++held c.phase := by
  obtain ⟨unwritten,hv,_,hheld⟩ := hc.wrote
  rw [hv, hheld he]

theorem kept_open (he : ended c.phase = false) : c.receiver.Subscribed ch := by
  apply hc.subscribed
  intro hover
  rw [hover] at he
  cases he

/-- Written, at hand, missed and still to come: all that was offered. -/
theorem kept_account (he : ended c.phase = false) :
    c.written.length+(held c.phase).length+skipped c.receiver.history+
      (ch.log.length-c.receiver.next) = ch.offered.length-c.receiver.first := by
  have hopen := kept_open capacity ch c hc he
  have hlen := congrArg List.length (kept_values capacity ch c hc he)
  have hahead := subscribed_ahead ch c.receiver hopen
  have hadv := advance_eq c.receiver.history
  have hle := hopen.offered
  rw [List.length_append] at hlen
  omega

theorem kept_complete (he : ended c.phase = false)
    (hfew : ch.offered.length ≤ c.receiver.first+capacity) :
    c.written++held c.phase++ch.log.drop c.receiver.next = ch.offered.drop c.receiver.first := by
  have hopen := kept_open capacity ch c hc he
  have hskip : skipped c.receiver.history = 0 := by
    by_contra hs
    have hlag := hc.lag hs
    omega
  obtain ⟨rest,hrest⟩ := follows_unbroken _ _ _ hc.follows hskip
  have hadv : advance c.receiver.history = (values c.receiver.history).length := by
    rw [advance_eq, hskip, Nat.add_zero]
  have hdrop : ch.offered.drop (c.receiver.first+advance c.receiver.history) = rest := by
    rw [← List.drop_drop, ← hrest, hadv, List.drop_left]
  rw [← kept_values capacity ch c hc he, hopen.ahead, hdrop, hrest]

end Written

/-! ## What the server keeps -/

theorem countP_set_add {β : Type*} (p : β → Bool) (l : List β) (i : ℕ) (x y : β)
    (hx : l[i]? = some x) :
    ∃ rest, l.countP p = rest+(p x).toNat ∧ (l.set i y).countP p = rest+(p y).toNat := by
  induction l generalizing i with
  | nil => cases hx
  | cons z l ih =>
    cases i with
    | zero =>
      cases hx
      refine ⟨l.countP p,?_,?_⟩
      · rw [List.countP_cons]
        cases p x <;> rfl
      · rw [List.set_cons_zero, List.countP_cons]
        cases p y <;> rfl
    | succ i =>
      obtain ⟨rest,hl,hset⟩ := ih i hx
      refine ⟨rest+if p z = true then 1 else 0,?_,?_⟩
      · rw [List.countP_cons, hl]
        omega
      · rw [List.set_cons_succ, List.countP_cons, hset]
        omega

def connected (c : Client) : Bool := c.phase.counted

structure Server.Kept (capacity : ℕ) (s : Server) : Prop where
  clients : ∀ c ∈ s.clients, c.Kept capacity s.outgoing
  count : s.clientCount = s.clients.countP connected

section Kept

variable (capacity : ℕ)

theorem new_kept : Server.new.Kept capacity where
  clients _ hc := absurd hc List.not_mem_nil
  count := rfl

variable (s : Server) (hs : s.Kept capacity)
include hs

theorem server_step_kept (a : TaskAct) (s' : Server) (h : s.step capacity a = some s') :
    s'.Kept capacity := by
  cases a with
  | accept =>
    simp only [Server.step] at h
    split_ifs at h
    cases h
    constructor
    · intro c hc
      rcases List.mem_append.mp hc with hold | hnew
      · exact hs.clients c hold
      · rw [List.mem_singleton.mp hnew]
        exact accepted_kept capacity s.outgoing
    · rw [hs.count, List.countP_append]
      rfl
  | acceptFailed =>
    simp only [Server.step] at h
    split_ifs at h
    cases h
    exact hs
  | acceptStopped =>
    simp only [Server.step] at h
    split_ifs at h
    cases h
    exact ⟨hs.clients,hs.count⟩
  | client i a =>
    obtain ⟨c,hi,h⟩ := Option.bind_eq_some_iff.mp h
    obtain ⟨c',hc',rfl⟩ := Option.map_eq_some_iff.mp h
    have hc := hs.clients c (List.mem_of_getElem? hi)
    constructor
    · intro d hd
      rcases List.mem_or_eq_of_mem_set hd with hold | rfl
      · exact hs.clients d hold
      · exact client_step_kept capacity s c a d hc' hc
    · obtain ⟨rest,hbefore,hafter⟩ := countP_set_add connected s.clients i c c' hi
      change a.recount s.clientCount = (s.clients.set i c').countP connected
      rw [hs.count, hbefore, hafter]
      exact client_step_recount capacity s c a c' hc' rest

theorem main_step_kept (a : MainAct) (s' : Server) (h : s.mainStep a = some s') :
    s'.Kept capacity := by
  cases a with
  | send payload =>
    cases h
    refine ⟨fun c hc => send_kept capacity c s.outgoing s.receivers payload ?_ (hs.clients c hc),
      hs.count⟩
    intro hphase hzero
    have hover := List.countP_eq_zero.mp hzero c hc
    simp [hphase] at hover
  | shutdown =>
    cases h
    exact ⟨hs.clients,hs.count⟩
  | join =>
    simp only [Server.mainStep] at h
    split_ifs at h
    cases h
    exact ⟨hs.clients,hs.count⟩
  | fail =>
    cases h
    exact ⟨hs.clients,hs.count⟩

end Kept

/-! ## With a main task -/

structure System (π : Type) where
  main : π
  server : Server

inductive Act (ι : Type) where
  | main (o : ι)
  | task (a : TaskAct)

section Systems

variable {π ι : Type} (mainTask : π → ι → Option (π × Option MainAct)) (capacity : ℕ)

def perform (server : Server) (r : π × Option MainAct) : Option (System π) :=
  match r.2 with
  | none => some ⟨r.1,server⟩
  | some a => (server.mainStep a).map (fun server => ⟨r.1,server⟩)

def step (s : System π) : Act ι → Option (System π)
  | .main o => (mainTask s.main o).bind (perform s.server)
  | .task a => (s.server.step capacity a).map (fun server => ⟨s.main,server⟩)

inductive Stepped (s : System π) : Act ι → System π → Prop
  | quiet (o : ι) (m : π) (hm : mainTask s.main o = some (m,none)) :
      Stepped s (.main o) ⟨m,s.server⟩
  | acted (o : ι) (m : π) (a : MainAct) (server : Server)
      (hm : mainTask s.main o = some (m,some a)) (ha : s.server.mainStep a = some server) :
      Stepped s (.main o) ⟨m,server⟩
  | task (a : TaskAct) (server : Server) (ha : s.server.step capacity a = some server) :
      Stepped s (.task a) ⟨s.main,server⟩

theorem step_cases (s : System π) (a : Act ι) (s' : System π)
    (h : step mainTask capacity s a = some s') : Stepped mainTask capacity s a s' := by
  cases a with
  | main o =>
    obtain ⟨⟨m,act⟩,hm,h⟩ := Option.bind_eq_some_iff.mp h
    cases act with
    | none =>
      cases h
      exact .quiet o m hm
    | some act =>
      obtain ⟨server,ha,rfl⟩ := Option.map_eq_some_iff.mp h
      exact .acted o m act server hm ha
  | task a =>
    obtain ⟨server,ha,rfl⟩ := Option.map_eq_some_iff.mp h
    exact .task a server ha

theorem run_kept (m : π) (acts : List (Act ι)) (s : System π)
    (h : run (step mainTask capacity) ⟨m,.new⟩ acts = some s) : s.server.Kept capacity := by
  refine run_invariant (step mainTask capacity) (fun s => s.server.Kept capacity) ?_ acts _ s
    (new_kept capacity) h
  intro s a s' hs h
  cases step_cases mainTask capacity s a s' h with
  | quiet o m hm => exact hs
  | acted o m a server hm ha => exact main_step_kept capacity s.server hs a server ha
  | task a server ha => exact server_step_kept capacity s.server hs a server ha

/-! The main task on its own, and its part in a run. -/

/-- The main task alone: where it gets to, and what it does to the server. -/
def produce : π → List ι → Option (π × List MainAct)
  | m, [] => some (m,[])
  | m, o::os => (mainTask m o).bind (fun r =>
      (produce r.1 os).map (fun r' => (r'.1,r.2.toList++r'.2)))

def occurrences : List (Act ι) → List ι
  | [] => []
  | .main o::acts => o::occurrences acts
  | .task _::acts => occurrences acts

def payloads : List MainAct → List String
  | [] => []
  | .send payload::acts => payload::payloads acts
  | _::acts => payloads acts

/-- The main task has told the others to stop, or is gone. -/
def signals : List MainAct → Bool
  | [] => false
  | .send _::acts => signals acts
  | _::_ => true

theorem produce_append (m : π) (os os' : List ι) :
    produce mainTask m (os++os') = (produce mainTask m os).bind (fun r =>
      (produce mainTask r.1 os').map (fun r' => (r'.1,r.2++r'.2))) := by
  induction os generalizing m with
  | nil =>
    cases h : produce mainTask m os' with
    | none => simp [produce, h]
    | some r => simp [produce, h]
  | cons o os ih =>
    rw [List.cons_append, produce, produce]
    cases hm : mainTask m o with
    | none => rfl
    | some r =>
      rw [Option.bind_some, Option.bind_some, ih]
      cases hos : produce mainTask r.1 os with
      | none => rfl
      | some q =>
        cases hos' : produce mainTask q.1 os' with
        | none => simp [hos']
        | some q' => simp [hos']

theorem produce_snoc (m m' : π) (os : List ι) (emitted : List MainAct) (o : ι)
    (r : π × Option MainAct) (h : produce mainTask m os = some (m',emitted))
    (hr : mainTask m' o = some r) :
    produce mainTask m (os++[o]) = some (r.1,emitted++r.2.toList) := by
  rw [produce_append, h]
  simp [produce, hr]

/-- What holds of the occurrences and the acts so far goes on to hold. -/
theorem produce_history (P : List ι → List MainAct → π → Prop)
    (hstep : ∀ past emitted m o r, P past emitted m → mainTask m o = some r →
      P (past++[o]) (emitted++r.2.toList) r.1)
    (past : List ι) (emitted : List MainAct) (m : π) (os : List ι) (m' : π)
    (more : List MainAct) (hm : P past emitted m) (h : produce mainTask m os = some (m',more)) :
    P (past++os) (emitted++more) m' := by
  induction os generalizing past emitted m more with
  | nil =>
    cases h
    simpa using hm
  | cons o os ih =>
    obtain ⟨r,hr,h⟩ := Option.bind_eq_some_iff.mp h
    obtain ⟨q,hq,h⟩ := Option.map_eq_some_iff.mp h
    cases h
    have hnext := ih (past++[o]) (emitted++r.2.toList) r.1 q.2 (hstep past emitted m o r hm hr) hq
    simpa using hnext

theorem occurrences_append (acts acts' : List (Act ι)) :
    occurrences (acts++acts') = occurrences acts++occurrences acts' := by
  induction acts with
  | nil => rfl
  | cons a acts ih =>
    cases a with
    | main o => exact congrArg (o::·) ih
    | task a => exact ih

theorem payloads_append (acts acts' : List MainAct) :
    payloads (acts++acts') = payloads acts++payloads acts' := by
  induction acts with
  | nil => rfl
  | cons a acts ih =>
    cases a with
    | send payload => exact congrArg (payload::·) ih
    | _ => exact ih

theorem signals_append (acts acts' : List MainAct) :
    signals (acts++acts') = (signals acts || signals acts') := by
  induction acts with
  | nil => rfl
  | cons a acts ih =>
    cases a with
    | send payload => exact ih
    | _ => rfl

/-- The main task's part: only it sends, signals and returns. -/
structure Produced (m : π) (past : List (Act ι)) (s : System π) (emitted : List MainAct) : Prop where
  produced : produce mainTask m (occurrences past) = some (s.main,emitted)
  offered : s.server.outgoing.offered = payloads emitted
  stopping : s.server.stopping = signals emitted

theorem server_step_main (s : Server) (a : TaskAct) (s' : Server)
    (h : s.step capacity a = some s') :
    s'.outgoing = s.outgoing ∧ s'.stopping = s.stopping := by
  cases a with
  | client i a =>
    obtain ⟨c,_,h⟩ := Option.bind_eq_some_iff.mp h
    obtain ⟨c',_,rfl⟩ := Option.map_eq_some_iff.mp h
    exact ⟨rfl,rfl⟩
  | _ =>
    simp only [Server.step] at h
    split_ifs at h
    cases h
    exact ⟨rfl,rfl⟩

theorem main_step_offered (s : Server) (a : MainAct) (s' : Server) (h : s.mainStep a = some s') :
    s'.outgoing.offered = s.outgoing.offered++payloads [a] ∧
    s'.stopping = (s.stopping || signals [a]) := by
  cases a with
  | send payload =>
    cases h
    exact ⟨send_offered _ _ _,(Bool.or_false _).symm⟩
  | shutdown =>
    cases h
    exact ⟨(List.append_nil _).symm,by simp [Server.stopping, signals]⟩
  | join =>
    simp only [Server.mainStep] at h
    split_ifs at h
    cases h
    exact ⟨(List.append_nil _).symm,by simp [Server.stopping, signals]⟩
  | fail =>
    cases h
    exact ⟨(List.append_nil _).symm,by simp [Server.stopping, signals]⟩

theorem step_produced (m : π) (past : List (Act ι)) (s : System π) (a : Act ι) (s' : System π)
    (hs : ∃ emitted, Produced mainTask m past s emitted)
    (h : step mainTask capacity s a = some s') :
    ∃ emitted, Produced mainTask m (past++[a]) s' emitted := by
  obtain ⟨emitted,hs⟩ := hs
  cases step_cases mainTask capacity s a s' h with
  | quiet o m' hm =>
    refine ⟨emitted,?_,hs.offered,hs.stopping⟩
    rw [occurrences_append]
    simpa [occurrences] using produce_snoc mainTask m s.main _ emitted o _ hs.produced hm
  | acted o m' a server hm ha =>
    obtain ⟨hoffered,hstopping⟩ := main_step_offered s.server a server ha
    refine ⟨emitted++[a],?_,?_,?_⟩
    · rw [occurrences_append]
      simpa [occurrences] using produce_snoc mainTask m s.main _ emitted o _ hs.produced hm
    · rw [hoffered, hs.offered, payloads_append]
    · rw [hstopping, hs.stopping, signals_append]
  | task a server ha =>
    obtain ⟨houtgoing,hstopping⟩ := server_step_main capacity s.server a server ha
    refine ⟨emitted,?_,?_,?_⟩
    · rw [occurrences_append]
      simpa [occurrences] using hs.produced
    · rw [houtgoing]
      exact hs.offered
    · rw [hstopping]
      exact hs.stopping

theorem run_produced (m : π) (acts : List (Act ι)) (s : System π)
    (h : run (step mainTask capacity) ⟨m,.new⟩ acts = some s) :
    ∃ emitted, Produced mainTask m acts s emitted :=
  run_history (step mainTask capacity) (fun past s => ∃ emitted, Produced mainTask m past s emitted)
    (step_produced mainTask capacity m) [] acts _ s ⟨[],rfl,rfl,rfl⟩ h

/-- The main task on its own does its acts to the server one after the other. -/
theorem run_alone (m m' : π) (os : List ι) (emitted : List MainAct) (server server' : Server)
    (h : produce mainTask m os = some (m',emitted))
    (hs : emitted.foldlM Server.mainStep server = some server') :
    run (step mainTask capacity) ⟨m,server⟩ (os.map Act.main) = some ⟨m',server'⟩ := by
  induction os generalizing m server emitted with
  | nil =>
    cases h
    cases hs
    rfl
  | cons o os ih =>
    obtain ⟨⟨m1,a⟩,hm,h⟩ := Option.bind_eq_some_iff.mp h
    obtain ⟨q,hq,h⟩ := Option.map_eq_some_iff.mp h
    cases h
    rw [List.foldlM_append] at hs
    obtain ⟨server1,hs1,hs⟩ := Option.bind_eq_some_iff.mp hs
    refine (run_cons _ _ ⟨m1,server1⟩ _ _ ?_).trans (ih m1 q.2 server1 hq hs)
    rw [step, hm, Option.bind_some, perform]
    cases a with
    | none =>
      cases hs1
      rfl
    | some a =>
      obtain ⟨server2,ha,hs1⟩ := Option.bind_eq_some_iff.mp hs1
      cases hs1
      simp only [ha, Option.map_some]

theorem occurrences_main (os : List ι) : occurrences (os.map Act.main) = os := by
  induction os with
  | nil => rfl
  | cons o os ih => exact congrArg (o::·) ih

/-- What the other tasks do. -/
def tasks : List (Act ι) → List TaskAct
  | [] => []
  | .main _::acts => tasks acts
  | .task a::acts => a::tasks acts

theorem tasks_append (acts acts' : List (Act ι)) : tasks (acts++acts') = tasks acts++tasks acts' := by
  induction acts with
  | nil => rfl
  | cons a acts ih =>
    cases a with
    | main o => exact ih
    | task a => exact congrArg (a::·) ih

theorem tasks_main (os : List ι) : tasks (os.map Act.main) = [] := by
  induction os with
  | nil => rfl
  | cons o os ih => exact ih

end Systems

end RlStatsApi.OverlayClients
