import RlStatsApi.OverlayClients
import RlStatsApi.RelayLoop

/-!
# The broadcast server

The main task of the broadcaster between two points where others may run: it
takes a result of the game's stream, offers one envelope after the other to
the overlay clients, reconnects to the game, or waits for the accept loop.
Whatever the order of the tasks, each client is written what the game's
events translate to from the moment it is accepted on, in order and once,
less what it is told it has missed.
-/

set_option autoImplicit false

namespace RlStatsApi.BroadcastServer
open RlStatsApi.Error RlStatsApi.EventParsing RlStatsApi.SosTranslation RlStatsApi.StreamClient
open RlStatsApi.RelayLoop RlStatsApi.LabelledRuns RlStatsApi.BoundedBroadcast
open RlStatsApi.OverlayClients

/-! ## The main task -/

inductive MainPhase where
  | selecting
  | forwarding (e : SosEnvelope) (rest : List SosEnvelope)
  | reconnecting (left : ℕ)
  | stopping
  | joining
  | over

inductive Occurrence where
  | nextEvent (r : Outcome (Option StatsEvent))
  | signal
  | forwarded
  | shutdownSent
  | reconnected
  | reconnectFailed
  | joined

structure Main where
  phase : MainPhase
  relayed : ℕ

def Main.start : Main := ⟨.selecting,0⟩

def forwardNext : List SosEnvelope → MainPhase
  | [] => .selecting
  | e::rest => .forwarding e rest

section Task

variable (maxEvents : Option ℕ) (write : SosEnvelope → String)

/-- A step and what it does to the server. -/
def mainTask (m : Main) : Occurrence → Option (Main × Option MainAct)
  | .nextEvent r =>
    match m.phase, r with
    | .selecting, .ok (some event) =>
      match translateStatsEvent event with
      | .ok envelopes => some ({m with phase := forwardNext envelopes},none)
      | .error _ => some ({m with phase := .over},some .fail)
    | .selecting, _ => some ({m with phase := .reconnecting 10},none)
    | _, _ => none
  | .signal =>
    match m.phase with
    | .selecting => some ({m with phase := .stopping},none)
    | _ => none
  | .forwarded =>
    match m.phase with
    | .forwarding e rest =>
      some (⟨if maxEvents.any (fun max => decide (max ≤ m.relayed+1)) = true then .stopping
        else forwardNext rest,m.relayed+1⟩,some (.send (write e)))
    | _ => none
  | .shutdownSent =>
    match m.phase with
    | .stopping => some ({m with phase := .joining},some .shutdown)
    | _ => none
  | .reconnected =>
    match m.phase with
    | .reconnecting (_+1) => some ({m with phase := .selecting},none)
    | _ => none
  | .reconnectFailed =>
    match m.phase with
    | .reconnecting (left+1) =>
      if left = 0 then some ({m with phase := .over},some .fail)
      else some ({m with phase := .reconnecting left},none)
    | _ => none
  | .joined =>
    match m.phase with
    | .joining => some ({m with phase := .over},some .join)
    | _ => none

/-! ## What the main task offers -/

def returned : List Occurrence → List StatsEvent
  | [] => []
  | .nextEvent (.ok (some event))::os => event::returned os
  | _::os => returned os

theorem returned_append (os os' : List Occurrence) :
    returned (os++os') = returned os++returned os' := by
  induction os with
  | nil => rfl
  | cons o os ih =>
    cases o with
    | nextEvent r =>
      cases r with
      | error e => exact ih
      | ok x =>
        cases x with
        | none => exact ih
        | some event => exact congrArg (event::·) ih
    | _ => exact ih

def translations (os : List Occurrence) : List SosEnvelope := (returned os).flatMap translation

/-- The envelopes of the current event that are still to be offered. -/
def unsent : MainPhase → List SosEnvelope
  | .forwarding e rest => e::rest
  | _ => []

@[simp] theorem unsent_forwardNext (envelopes : List SosEnvelope) :
    unsent (forwardNext envelopes) = envelopes := by
  cases envelopes <;> rfl

/-- It has decided to stop. -/
def finished : MainPhase → Bool
  | .stopping => true
  | .joining => true
  | .over => true
  | _ => false

inductive TaskStepped (m : Main) : Occurrence → Main → Option MainAct → Prop
  | event (event : StatsEvent) (hm : m.phase = .selecting) :
      TaskStepped m (.nextEvent (.ok (some event)))
        {m with phase := forwardNext (translation event)} none
  | gap (r : Outcome (Option StatsEvent)) (hm : m.phase = .selecting)
      (hr : ∀ event, r ≠ .ok (some event)) :
      TaskStepped m (.nextEvent r) {m with phase := .reconnecting 10} none
  | signal (hm : m.phase = .selecting) :
      TaskStepped m .signal {m with phase := .stopping} none
  | forwarded (e : SosEnvelope) (rest : List SosEnvelope) (hm : m.phase = .forwarding e rest)
      (hmax : maxEvents.any (fun max => decide (max ≤ m.relayed+1)) = false) :
      TaskStepped m .forwarded ⟨forwardNext rest,m.relayed+1⟩ (some (.send (write e)))
  | last (e : SosEnvelope) (rest : List SosEnvelope) (hm : m.phase = .forwarding e rest)
      (hmax : maxEvents.any (fun max => decide (max ≤ m.relayed+1)) = true) :
      TaskStepped m .forwarded ⟨.stopping,m.relayed+1⟩ (some (.send (write e)))
  | shutdownSent (hm : m.phase = .stopping) :
      TaskStepped m .shutdownSent {m with phase := .joining} (some .shutdown)
  | reconnected (left : ℕ) (hm : m.phase = .reconnecting (left+1)) :
      TaskStepped m .reconnected {m with phase := .selecting} none
  | reconnectFailed (left : ℕ) (hm : m.phase = .reconnecting (left+2)) :
      TaskStepped m .reconnectFailed {m with phase := .reconnecting (left+1)} none
  | gaveUp (hm : m.phase = .reconnecting 1) :
      TaskStepped m .reconnectFailed {m with phase := .over} (some .fail)
  | joined (hm : m.phase = .joining) :
      TaskStepped m .joined {m with phase := .over} (some .join)

theorem task_cases (m : Main) (o : Occurrence) (m' : Main) (a : Option MainAct)
    (h : mainTask maxEvents write m o = some (m',a)) :
    TaskStepped maxEvents write m o m' a := by
  cases o with
  | nextEvent r =>
    simp only [mainTask] at h
    split at h
    · next event hm =>
      rw [translateStatsEvent_eq] at h
      cases h
      exact .event event hm
    · next r hm hr =>
      cases h
      exact .gap _ hm (fun event he => hr event he)
    · cases h
  | signal =>
    simp only [mainTask] at h
    split at h
    · next hm =>
      cases h
      exact .signal hm
    · cases h
  | forwarded =>
    simp only [mainTask] at h
    split at h
    · next e rest hm =>
      split_ifs at h with hmax
      · cases h
        exact .last e rest hm hmax
      · cases h
        exact .forwarded e rest hm (by simpa using hmax)
    · cases h
  | shutdownSent =>
    simp only [mainTask] at h
    split at h
    · next hm =>
      cases h
      exact .shutdownSent hm
    · cases h
  | reconnected =>
    simp only [mainTask] at h
    split at h
    · next left hm =>
      cases h
      exact .reconnected left hm
    · cases h
  | reconnectFailed =>
    simp only [mainTask] at h
    split at h
    · next left hm =>
      split_ifs at h with hleft
      · subst hleft
        cases h
        exact .gaveUp hm
      · obtain ⟨k,rfl⟩ := Nat.exists_eq_succ_of_ne_zero hleft
        cases h
        exact .reconnectFailed k hm
    · cases h
  | joined =>
    simp only [mainTask] at h
    split at h
    · next hm =>
      cases h
      exact .joined hm
    · cases h

/-- Offered and unsent envelopes are the translations of the events so far,
until the main task stops. -/
structure Accounted (past : List Occurrence) (emitted : List MainAct) (m : Main) : Prop where
  offered : finished m.phase = false →
    payloads emitted++(unsent m.phase).map write = (translations past).map write
  atMost : payloads emitted <+: (translations past).map write
  relayed : m.relayed = (payloads emitted).length
  signalled : signals emitted = true → m.phase = .joining ∨ m.phase = .over

theorem translations_append (os os' : List Occurrence) :
    translations (os++os') = translations os++translations os' := by
  rw [translations, returned_append, List.flatMap_append]
  rfl

/-- A step that sends nothing, after which the same envelopes are unsent. -/
theorem quiet_accounted (past : List Occurrence) (emitted : List MainAct) (m : Main)
    (o : Occurrence) (p : MainPhase) (a : Option MainAct) (hm : Accounted write past emitted m)
    (ho : translations [o] = []) (ha : payloads a.toList = [])
    (hunsent : finished p = false → finished m.phase = false ∧ unsent p = unsent m.phase)
    (hsignal : signals (emitted++a.toList) = true → p = .joining ∨ p = .over) :
    Accounted write (past++[o]) (emitted++a.toList) {m with phase := p} := by
  have htrans : translations (past++[o]) = translations past := by
    rw [translations_append, ho, List.append_nil]
  have hpay : payloads (emitted++a.toList) = payloads emitted := by
    rw [payloads_append, ha, List.append_nil]
  refine ⟨?_,?_,?_,hsignal⟩
  · intro hp
    obtain ⟨hf,hu⟩ := hunsent hp
    rw [htrans, hpay]
    change _++(unsent p).map write = _
    rw [hu]
    exact hm.offered hf
  · rw [htrans, hpay]
    exact hm.atMost
  · rw [hpay]
    exact hm.relayed

theorem sent_accounted (past : List Occurrence) (emitted : List MainAct) (m : Main)
    (e : SosEnvelope) (rest : List SosEnvelope) (p : MainPhase)
    (hm : Accounted write past emitted m) (hphase : m.phase = .forwarding e rest)
    (hp : finished p = false → unsent p = rest) :
    Accounted write (past++[.forwarded]) (emitted++[.send (write e)]) ⟨p,m.relayed+1⟩ := by
  have htrans : translations (past++[.forwarded]) = translations past := by
    rw [translations_append]
    exact List.append_nil _
  have hpay : payloads (emitted++[.send (write e)]) = payloads emitted++[write e] := by
    rw [payloads_append]
    rfl
  have hall := hm.offered (by rw [hphase]; rfl)
  rw [hphase] at hall
  have hsplit : payloads emitted++[write e]++rest.map write = (translations past).map write := by
    rw [← hall]
    simp [unsent]
  refine ⟨?_,?_,?_,?_⟩
  · intro hf
    rw [htrans, hpay]
    change _++(unsent p).map write = _
    rw [hp hf]
    exact hsplit
  · rw [htrans, hpay]
    exact ⟨_,hsplit⟩
  · rw [hpay, List.length_append, ← hm.relayed]
    rfl
  · intro hs
    rw [signals_append] at hs
    have hbefore : signals emitted = true := by simpa [signals] using hs
    rcases hm.signalled hbefore with h | h <;> rw [hphase] at h <;> cases h

theorem task_accounted (past : List Occurrence) (emitted : List MainAct) (m : Main)
    (o : Occurrence) (r : Main × Option MainAct) (hm : Accounted write past emitted m)
    (h : mainTask maxEvents write m o = some r) :
    Accounted write (past++[o]) (emitted++r.2.toList) r.1 := by
  obtain ⟨m',a⟩ := r
  have hquiet : ∀ p, (m.phase ≠ .joining ∧ m.phase ≠ .over) →
      signals (emitted++[]) = true → p = MainPhase.joining ∨ p = .over := by
    intro p hp hs
    rw [List.append_nil] at hs
    rcases hm.signalled hs with h | h
    · exact absurd h hp.1
    · exact absurd h hp.2
  cases task_cases maxEvents write m o m' a h with
  | event event hphase =>
    have hall := hm.offered (by rw [hphase]; rfl)
    rw [hphase] at hall
    have htrans : translations (past++[.nextEvent (.ok (some event))]) =
        translations past++translation event := by
      rw [translations_append]
      exact congrArg (translations past++·) (List.append_nil _)
    have hpay : payloads emitted = (translations past).map write := by simpa [unsent] using hall
    simp only [Option.toList_none, List.append_nil]
    refine ⟨?_,?_,hm.relayed,?_⟩
    · intro _
      rw [htrans, hpay, unsent_forwardNext, List.map_append]
    · rw [htrans, hpay, List.map_append]
      exact List.prefix_append _ _
    · intro hs
      rcases hm.signalled hs with h | h <;> rw [hphase] at h <;> cases h
  | gap r hphase hr =>
    have htrans : translations [.nextEvent r] = [] := by
      cases r with
      | error e => rfl
      | ok x =>
        cases x with
        | none => rfl
        | some event => exact absurd rfl (hr event)
    exact quiet_accounted write past emitted m _ _ none hm htrans rfl
      (fun _ => by rw [hphase]; exact ⟨rfl,rfl⟩) (hquiet _ (by simp [hphase]))
  | signal hphase =>
    exact quiet_accounted write past emitted m _ _ none hm rfl rfl (fun h => by cases h)
      (hquiet _ (by simp [hphase]))
  | forwarded e rest hphase hmax =>
    exact sent_accounted write past emitted m e rest _ hm hphase
      (fun _ => unsent_forwardNext rest)
  | last e rest hphase hmax =>
    exact sent_accounted write past emitted m e rest _ hm hphase (fun h => by cases h)
  | shutdownSent hphase =>
    exact quiet_accounted write past emitted m _ _ _ hm rfl rfl (fun h => by cases h)
      (fun _ => .inl rfl)
  | reconnected left hphase =>
    exact quiet_accounted write past emitted m _ _ none hm rfl rfl
      (fun _ => by rw [hphase]; exact ⟨rfl,rfl⟩) (hquiet _ (by simp [hphase]))
  | reconnectFailed left hphase =>
    exact quiet_accounted write past emitted m _ _ none hm rfl rfl
      (fun _ => by rw [hphase]; exact ⟨rfl,rfl⟩) (hquiet _ (by simp [hphase]))
  | gaveUp hphase =>
    exact quiet_accounted write past emitted m _ _ _ hm rfl rfl (fun h => by cases h)
      (fun _ => .inr rfl)
  | joined hphase =>
    exact quiet_accounted write past emitted m _ _ _ hm rfl rfl (fun h => by cases h)
      (fun _ => .inr rfl)

theorem produce_accounted (os : List Occurrence) (m : Main) (emitted : List MainAct)
    (h : produce (mainTask maxEvents write) .start os = some (m,emitted)) :
    Accounted write os emitted m :=
  produce_history (mainTask maxEvents write) (Accounted write) (task_accounted maxEvents write)
    [] [] .start os m emitted ⟨fun _ => rfl,List.nil_prefix,rfl,fun h => by cases h⟩ h

/-! ## Runs of the server -/

variable (capacity : ℕ)

/-- A run of the server from its start. -/
def Runs (acts : List (Act Occurrence)) (s : System Main) : Prop :=
  run (step (mainTask maxEvents write) capacity) ⟨.start,.new⟩ acts = some s

theorem run_accounted (acts : List (Act Occurrence)) (s : System Main)
    (h : Runs maxEvents write capacity acts s) :
    ∃ emitted, Produced (mainTask maxEvents write) .start acts s emitted ∧
      Accounted write (occurrences acts) emitted s.main := by
  obtain ⟨emitted,hp⟩ := run_produced (mainTask maxEvents write) capacity .start acts s h
  exact ⟨emitted,hp,produce_accounted maxEvents write _ _ _ hp.produced⟩

/-- However the tasks take turns: what is offered are the translations of the
events returned, and every client is written them from its acceptance on, in
order and once, less what it is told it has missed. -/
theorem clients_served (acts : List (Act Occurrence)) (s : System Main)
    (h : Runs maxEvents write capacity acts s) :
    s.server.outgoing.offered <+: (translations (occurrences acts)).map write ∧
    (finished s.main.phase = false → s.server.outgoing.offered++(unsent s.main.phase).map write =
      (translations (occurrences acts)).map write) ∧
    ∀ c ∈ s.server.clients,
      c.written.Sublist (s.server.outgoing.offered.drop c.receiver.first) ∧
      (skipped c.receiver.history = 0 →
        c.written <+: s.server.outgoing.offered.drop c.receiver.first) ∧
      (ended c.phase = false →
        c.written.length+(held c.phase).length+skipped c.receiver.history+
          (s.server.outgoing.log.length-c.receiver.next) =
            s.server.outgoing.offered.length-c.receiver.first) := by
  obtain ⟨emitted,hp,ha⟩ := run_accounted maxEvents write capacity acts s h
  have hkept := run_kept (mainTask maxEvents write) capacity .start acts s h
  refine ⟨by rw [hp.offered]; exact ha.atMost,by rw [hp.offered]; exact ha.offered,?_⟩
  intro c hc
  have hkc := hkept.clients c hc
  exact ⟨kept_sublist capacity _ c hkc,kept_unbroken capacity _ c hkc,kept_account capacity _ c hkc⟩

/-- A client comes between the halves of a countdown and is written the
second. -/
def lateClient : List (Act Occurrence) :=
  [.main (.nextEvent (.ok (some (.countdownBegin ⟨none,[]⟩)))),.main .forwarded,.task .accept,
   .task (.client 0 .upgraded),.main .forwarded,.task (.client 0 .recv),.task (.client 0 .sent)]

theorem lateClient_served : ∃ s, Runs none SosEnvelope.event 1024 lateClient s ∧
    s.server.clients.map OverlayClients.Client.written = [["game:post_countdown_begin"]] ∧
    s.server.outgoing.offered <+:
      (translations (occurrences lateClient)).map SosEnvelope.event ∧
    ∀ c ∈ s.server.clients, c.written.Sublist (s.server.outgoing.offered.drop c.receiver.first) := by
  refine ⟨_,rfl,rfl,?_⟩
  have hserved := clients_served none SosEnvelope.event 1024 lateClient _ rfl
  exact ⟨hserved.1,fun c hc => (hserved.2.2 c hc).1⟩

/-- A client to which no more payloads were offered than the channel holds has
missed nothing: what is written, at hand and still to come is all of it. -/
theorem unhurried_client_complete (acts : List (Act Occurrence)) (s : System Main)
    (h : Runs maxEvents write capacity acts s) (c : OverlayClients.Client) (hc : c ∈ s.server.clients)
    (he : ended c.phase = false)
    (hfew : s.server.outgoing.offered.length ≤ c.receiver.first+capacity) :
    c.written++held c.phase++s.server.outgoing.log.drop c.receiver.next =
      s.server.outgoing.offered.drop c.receiver.first :=
  kept_complete capacity _ c
    ((run_kept (mainTask maxEvents write) capacity .start acts s h).clients c hc) he hfew

theorem lateClient_complete : ∃ s c, Runs none SosEnvelope.event 1024 lateClient s ∧
    s.server.clients = [c] ∧
    c.written++held c.phase++s.server.outgoing.log.drop c.receiver.next =
      s.server.outgoing.offered.drop c.receiver.first :=
  ⟨_,_,rfl,rfl,unhurried_client_complete none SosEnvelope.event 1024 lateClient _ rfl _
    (List.mem_singleton.mpr rfl) rfl (by decide)⟩

/-- The counter is the number of handlers that have counted their client, and
never goes below 0. -/
theorem client_count_exact (acts : List (Act Occurrence)) (s : System Main)
    (h : Runs maxEvents write capacity acts s) :
    s.server.clientCount = s.server.clients.countP connected ∧
    s.server.clientCount ≤ s.server.receivers ∧
    ∀ i s', step (mainTask maxEvents write) capacity s (.task (.client i .closed)) = some s' →
      s'.server.clientCount+1 = s.server.clientCount := by
  have hkept := run_kept (mainTask maxEvents write) capacity .start acts s h
  refine ⟨hkept.count,?_,?_⟩
  · rw [hkept.count]
    apply List.countP_mono_left
    intro c _ hc
    cases hp : c.phase <;> simp_all [connected, Phase.counted]
  · intro i s' hs'
    have hkept' := run_kept (mainTask maxEvents write) capacity .start _ s'
      (run_trans _ _ _ _ _ _ h ((run_cons _ _ _ _ [] hs').trans rfl))
    rw [hkept.count, hkept'.count]
    obtain ⟨server,hserver,rfl⟩ := Option.map_eq_some_iff.mp hs'
    obtain ⟨c,hi,hc⟩ := Option.bind_eq_some_iff.mp hserver
    obtain ⟨c',hc',rfl⟩ := Option.map_eq_some_iff.mp hc
    obtain ⟨rest,hbefore,hafter⟩ := countP_set_add connected s.server.clients i c c' hi
    obtain ⟨p,hp,rfl⟩ := Option.map_eq_some_iff.mp hc'
    obtain ⟨hclosing,rfl⟩ := move_closed _ _ _ hp
    have hcounted : connected c = true := by rw [connected, hclosing]; rfl
    rw [hbefore, hcounted]
    exact congrArg (·+1) hafter

theorem lateClient_counted : ∃ s, Runs none SosEnvelope.event 1024 lateClient s ∧
    s.server.clientCount = s.server.clients.countP connected ∧
    s.server.clientCount ≤ s.server.receivers :=
  ⟨_,rfl,(client_count_exact none SosEnvelope.event 1024 lateClient _ rfl).1,
    (client_count_exact none SosEnvelope.event 1024 lateClient _ rfl).2.1⟩

end Task

/-! ## The sequential loop -/

def exitPhase : Option Exit → MainPhase
  | none => .selecting
  | some .shutdown => .stopping
  | some .maxEvents => .stopping
  | some (.failed _) => .over

section Loop

variable {σ τ : Type} (S : Source σ) (T : Sink τ) (maxEvents : Option ℕ)
  (write : SosEnvelope → String)

/-- What happens to the main task, as the source has it. -/
inductive Answered (s : σ) : Occurrence → σ → Prop
  | returned (r : Outcome (Option StatsEvent)) (s' : σ) (h : S.nextEvent s = (.ready r,s')) :
      Answered s (.nextEvent r) s'
  | signalled (s' : σ) (h : S.nextEvent s = (.dropped,s')) : Answered s .signal s'
  | reconnected (s' : σ) (h : S.reconnect s = (.ok (),s')) : Answered s .reconnected s'
  | refused (e : RlStatsError) (s' : σ) (h : S.reconnect s = (.error e,s')) :
      Answered s .reconnectFailed s'
  | forwarded : Answered s .forwarded s
  | shutdownSent : Answered s .shutdownSent s
  | joined : Answered s .joined s

inductive Fed : σ → List Occurrence → σ → Prop
  | nil (s : σ) : Fed s [] s
  | cons (s s' s'' : σ) (o : Occurrence) (os : List Occurrence) (h : Answered S s o s')
      (hs : Fed s' os s'') : Fed s (o::os) s''

theorem fed_begins (s s'' : σ) (os os' : List Occurrence) (h : Fed S s (os++os') s'') :
    ∃ s', Fed S s os s' := by
  induction os generalizing s with
  | nil => exact ⟨s,.nil s⟩
  | cons o os ih =>
    cases h with
    | cons _ s1 _ _ _ ha hrest =>
      obtain ⟨s',hs'⟩ := ih s1 hrest
      exact ⟨s',.cons s s1 s' o os ha hs'⟩

theorem fed_append (s s' s'' : σ) (os os' : List Occurrence) (h : Fed S s os s')
    (h' : Fed S s' os' s'') : Fed S s (os++os') s'' := by
  induction h with
  | nil s => exact h'
  | cons s s1 s2 o os ha _ ih => exact .cons s s1 s'' o (os++os') ha (ih h')

/-- What the main task waits for in a phase. -/
def awaits : MainPhase → Occurrence → Bool
  | .selecting, .nextEvent _ => true
  | .selecting, .signal => true
  | .forwarding _ _, .forwarded => true
  | .reconnecting _, .reconnected => true
  | .reconnecting _, .reconnectFailed => true
  | .stopping, .shutdownSent => true
  | .joining, .joined => true
  | _, _ => false

theorem task_awaits (m : Main) (o : Occurrence) (r : Main × Option MainAct)
    (h : mainTask maxEvents write m o = some r) : awaits m.phase o = true := by
  obtain ⟨m',a⟩ := r
  cases task_cases maxEvents write m o m' a h with
  | event event hm => rw [hm]; rfl
  | gap r hm hr => rw [hm]; rfl
  | signal hm => rw [hm]; rfl
  | forwarded e rest hm hmax => rw [hm]; rfl
  | last e rest hm hmax => rw [hm]; rfl
  | shutdownSent hm => rw [hm]; rfl
  | reconnected left hm => rw [hm]; rfl
  | reconnectFailed left hm => rw [hm]; rfl
  | gaveUp hm => rw [hm]; rfl
  | joined hm => rw [hm]; rfl

/-- The source answers in one way what is waited for. -/
theorem answered_unique (p : MainPhase) (s s1 s2 : σ) (o1 o2 : Occurrence)
    (hp1 : awaits p o1 = true) (hp2 : awaits p o2 = true) (h1 : Answered S s o1 s1)
    (h2 : Answered S s o2 s2) : o1 = o2 ∧ s1 = s2 := by
  cases p with
  | selecting =>
    cases h1 with
    | returned r1 _ h1 =>
      cases h2 with
      | returned r2 _ h2 =>
        rw [h1] at h2
        cases h2
        exact ⟨rfl,rfl⟩
      | signalled _ h2 =>
        rw [h1] at h2
        cases h2
      | _ => cases hp2
    | signalled _ h1 =>
      cases h2 with
      | returned r2 _ h2 =>
        rw [h1] at h2
        cases h2
      | signalled _ h2 =>
        rw [h1] at h2
        cases h2
        exact ⟨rfl,rfl⟩
      | _ => cases hp2
    | _ => cases hp1
  | reconnecting left =>
    cases h1 with
    | reconnected _ h1 =>
      cases h2 with
      | reconnected _ h2 =>
        rw [h1] at h2
        cases h2
        exact ⟨rfl,rfl⟩
      | refused e2 _ h2 =>
        rw [h1] at h2
        cases h2
      | _ => cases hp2
    | refused e1 _ h1 =>
      cases h2 with
      | reconnected _ h2 =>
        rw [h1] at h2
        cases h2
      | refused e2 _ h2 =>
        rw [h1] at h2
        cases h2
        exact ⟨rfl,rfl⟩
      | _ => cases hp2
    | _ => cases hp1
  | forwarding e rest =>
    cases h1 <;> cases hp1
    cases h2 <;> cases hp2
    exact ⟨rfl,rfl⟩
  | stopping =>
    cases h1 <;> cases hp1
    cases h2 <;> cases hp2
    exact ⟨rfl,rfl⟩
  | joining =>
    cases h1 <;> cases hp1
    cases h2 <;> cases hp2
    exact ⟨rfl,rfl⟩
  | _ => cases hp1

/-- With one source, the main task can only get further or less far. -/
theorem fed_comparable (m m1 m2 : Main) (s s1 s2 : σ) (os1 os2 : List Occurrence)
    (e1 e2 : List MainAct) (h1 : Fed S s os1 s1) (h2 : Fed S s os2 s2)
    (hp1 : produce (mainTask maxEvents write) m os1 = some (m1,e1))
    (hp2 : produce (mainTask maxEvents write) m os2 = some (m2,e2)) :
    os1 <+: os2 ∨ os2 <+: os1 := by
  induction h1 generalizing m os2 e1 e2 with
  | nil s => exact .inl List.nil_prefix
  | cons s s' _ o1 os1 ha1 _ ih =>
    cases h2 with
    | nil => exact .inr List.nil_prefix
    | cons _ t' _ o2 os2 ha2 h2 =>
      obtain ⟨r1,hr1,hp1⟩ := Option.bind_eq_some_iff.mp hp1
      obtain ⟨q1,hq1,hpair1⟩ := Option.map_eq_some_iff.mp hp1
      obtain ⟨r2,hr2,hp2⟩ := Option.bind_eq_some_iff.mp hp2
      obtain ⟨q2,hq2,hpair2⟩ := Option.map_eq_some_iff.mp hp2
      obtain ⟨rfl,rfl⟩ := answered_unique S m.phase s s' t' o1 o2
        (task_awaits maxEvents write m o1 r1 hr1) (task_awaits maxEvents write m o2 r2 hr2) ha1 ha2
      have hr : r1 = r2 := Option.some.inj (hr1.symm.trans hr2)
      subst hr
      obtain ⟨rfl,_⟩ := Prod.mk.inj hpair1
      obtain ⟨rfl,_⟩ := Prod.mk.inj hpair2
      rcases ih r1.1 os2 q1.2 q2.2 h2 hq1 hq2 with h | h
      · exact .inl (List.cons_prefix_cons.mpr ⟨rfl,h⟩)
      · exact .inr (List.cons_prefix_cons.mpr ⟨rfl,h⟩)

theorem finished_step (m : Main) (o : Occurrence) (r : Main × Option MainAct)
    (hm : finished m.phase = true) (h : mainTask maxEvents write m o = some r) :
    finished r.1.phase = true ∧ payloads r.2.toList = [] := by
  obtain ⟨m',a⟩ := r
  cases task_cases maxEvents write m o m' a h with
  | shutdownSent hphase => exact ⟨rfl,rfl⟩
  | joined hphase => exact ⟨rfl,rfl⟩
  | gaveUp hphase => exact ⟨rfl,rfl⟩
  | event event hphase => rw [hphase] at hm; cases hm
  | gap r hphase hr => rw [hphase] at hm; cases hm
  | signal hphase => rw [hphase] at hm; cases hm
  | forwarded e rest hphase hmax => rw [hphase] at hm; cases hm
  | last e rest hphase hmax => rw [hphase] at hm; cases hm
  | reconnected left hphase => rw [hphase] at hm; cases hm
  | reconnectFailed left hphase => rw [hphase] at hm; cases hm

theorem finished_produce (m m' : Main) (os : List Occurrence) (emitted : List MainAct)
    (hm : finished m.phase = true)
    (h : produce (mainTask maxEvents write) m os = some (m',emitted)) :
    payloads emitted = [] := by
  induction os generalizing m emitted with
  | nil =>
    cases h
    rfl
  | cons o os ih =>
    obtain ⟨r,hr,h⟩ := Option.bind_eq_some_iff.mp h
    obtain ⟨q,hq,hpair⟩ := Option.map_eq_some_iff.mp h
    obtain ⟨hf,hnone⟩ := finished_step maxEvents write m o r hm hr
    obtain ⟨rfl,rfl⟩ := Prod.mk.inj hpair
    rw [payloads_append, hnone, List.nil_append]
    exact ih r.1 q.2 hf hq

/-- After the signal nothing is emitted any more. -/
theorem produce_signalled (m m' : Main) (os os' : List Occurrence) (emitted : List MainAct)
    (h : produce (mainTask maxEvents write) m (os++.signal::os') = some (m',emitted)) :
    ∃ m1 before, produce (mainTask maxEvents write) m os = some (m1,before) ∧
      payloads emitted = payloads before := by
  rw [produce_append] at h
  obtain ⟨r,hr,h⟩ := Option.bind_eq_some_iff.mp h
  obtain ⟨q,hq,hpair⟩ := Option.map_eq_some_iff.mp h
  obtain ⟨p,hp,hq⟩ := Option.bind_eq_some_iff.mp hq
  obtain ⟨p',hp',rfl⟩ := Option.map_eq_some_iff.mp hq
  obtain ⟨rfl,rfl⟩ := Prod.mk.inj hpair
  refine ⟨r.1,r.2,hr,?_⟩
  have hstop : finished p.1.phase = true ∧ payloads p.2.toList = [] := by
    obtain ⟨m2,a⟩ := p
    cases task_cases maxEvents write r.1 .signal m2 a hp with
    | signal hm => exact ⟨rfl,rfl⟩
  rw [payloads_append, payloads_append, hstop.2,
    finished_produce maxEvents write p.1 p'.1 os' p'.2 hstop.1 hp', List.append_nil, List.append_nil]

/-- The payloads of a part of what happened are a part of the payloads, and
all of them if the main task had finished. -/
theorem produce_part (m m1 m2 : Main) (os1 os2 : List Occurrence) (e1 e2 : List MainAct)
    (h : os1 <+: os2) (hp1 : produce (mainTask maxEvents write) m os1 = some (m1,e1))
    (hp2 : produce (mainTask maxEvents write) m os2 = some (m2,e2)) :
    payloads e1 <+: payloads e2 ∧ (finished m1.phase = true → payloads e2 = payloads e1) := by
  obtain ⟨os,rfl⟩ := h
  rw [produce_append, hp1, Option.bind_some] at hp2
  obtain ⟨q,hq,hpair⟩ := Option.map_eq_some_iff.mp hp2
  obtain ⟨rfl,rfl⟩ := Prod.mk.inj hpair
  rw [payloads_append]
  refine ⟨List.prefix_append _ _,fun hf => ?_⟩
  rw [finished_produce maxEvents write m1 q.1 os q.2 hf hq, List.append_nil]

/-- The main task gets from one state to another, the source with it, and
offers the envelopes without waiting for the accept loop. -/
def Offers (m : Main) (s : σ) (m' : Main) (s' : σ) (es : List SosEnvelope) : Prop :=
  ∃ os emitted, produce (mainTask maxEvents write) m os = some (m',emitted) ∧ Fed S s os s' ∧
    payloads emitted = es.map write ∧ .join ∉ emitted

theorem offers_nil (m : Main) (s : σ) : Offers S maxEvents write m s m s [] :=
  ⟨[],[],rfl,.nil s,rfl,List.not_mem_nil⟩

theorem offers_trans (m m' m'' : Main) (s s' s'' : σ) (es es' : List SosEnvelope)
    (h : Offers S maxEvents write m s m' s' es) (h' : Offers S maxEvents write m' s' m'' s'' es') :
    Offers S maxEvents write m s m'' s'' (es++es') := by
  obtain ⟨os,emitted,hos,hfed,hes,hj⟩ := h
  obtain ⟨os',emitted',hos',hfed',hes',hj'⟩ := h'
  refine ⟨os++os',emitted++emitted',?_,fed_append S s s' s'' os os' hfed hfed',?_,?_⟩
  · rw [produce_append, hos, Option.bind_some, hos']
    rfl
  · rw [payloads_append, hes, hes', List.map_append]
  · simp [hj, hj']

theorem offers_step (m m' : Main) (s s' : σ) (o : Occurrence) (a : Option MainAct)
    (es : List SosEnvelope) (h : mainTask maxEvents write m o = some (m',a))
    (ho : Answered S s o s') (ha : payloads a.toList = es.map write) (hj : .join ∉ a.toList) :
    Offers S maxEvents write m s m' s' es := by
  refine ⟨[o],a.toList,?_,.cons s s' s' o [] ho (.nil s'),ha,hj⟩
  simp [produce, h]

theorem forward_offered (envelopes : List SosEnvelope) (n : ℕ) (t : τ) (s : σ) :
    ∃ es, Offers S maxEvents write ⟨forwardNext envelopes,n⟩ s
        ⟨exitPhase (forward T maxEvents envelopes n t).1,
          (forward T maxEvents envelopes n t).2.1⟩ s es ∧
      T.handed (forward T maxEvents envelopes n t).2.2 = T.handed t++es := by
  induction envelopes generalizing n t with
  | nil => exact ⟨[],offers_nil S maxEvents write _ s,(List.append_nil _).symm⟩
  | cons e envelopes ih =>
    by_cases hmax : maxEvents.any (fun max => decide (max ≤ n+1)) = true
    · have hstep : mainTask maxEvents write ⟨.forwarding e envelopes,n⟩ .forwarded =
          some (⟨.stopping,n+1⟩,some (.send (write e))) := by
        simp only [mainTask, if_pos hmax]
      refine ⟨[e],?_,?_⟩
      · rw [forward, if_pos hmax]
        exact offers_step S maxEvents write _ _ s s _ _ [e] hstep .forwarded rfl (by simp)
      · rw [forward, if_pos hmax]
        exact T.handed_send t e
    · have hstep : mainTask maxEvents write ⟨.forwarding e envelopes,n⟩ .forwarded =
          some (⟨forwardNext envelopes,n+1⟩,some (.send (write e))) := by
        simp only [mainTask, if_neg hmax]
      obtain ⟨es,hes,ht⟩ := ih (n+1) (T.send t e)
      rw [T.handed_send, List.append_assoc] at ht
      refine ⟨e::es,?_,?_⟩
      · rw [forward, if_neg hmax]
        exact offers_trans S maxEvents write _ _ _ s s s [e] es
          (offers_step S maxEvents write _ _ s s _ _ [e] hstep .forwarded rfl (by simp)) hes
      · rw [forward, if_neg hmax]
        exact ht

theorem reconnect_offered (n : ℕ) (last : Option RlStatsError) (s : σ) (relayed : ℕ) :
    Offers S maxEvents write ⟨.reconnecting (n+1),relayed⟩ s
      ⟨match (reconnectRlWithBackoff S (n+1) last s).1 with
        | .ok _ => .selecting
        | .error _ => .over,relayed⟩ (reconnectRlWithBackoff S (n+1) last s).2 [] := by
  induction n generalizing last s with
  | zero =>
    rw [reconnectRlWithBackoff]
    cases hs : S.reconnect s with
    | mk result s' =>
      cases result with
      | ok u =>
        exact offers_step S maxEvents write _ _ s s' .reconnected none [] rfl
          (.reconnected s' hs) rfl List.not_mem_nil
      | error e =>
        exact offers_step S maxEvents write _ _ s s' .reconnectFailed (some .fail) [] rfl
          (.refused e s' hs) rfl (by simp)
  | succ n ih =>
    rw [reconnectRlWithBackoff]
    cases hs : S.reconnect s with
    | mk result s' =>
      cases result with
      | ok u =>
        exact offers_step S maxEvents write _ _ s s' .reconnected none [] rfl
          (.reconnected s' hs) rfl List.not_mem_nil
      | error e =>
        exact offers_trans S maxEvents write _ _ _ s s' _ [] []
          (offers_step S maxEvents write _ _ s s' .reconnectFailed none [] rfl
            (.refused e s' hs) rfl List.not_mem_nil) (ih (some e) s')

theorem afterReconnect_offered (w : World σ τ) :
    Offers S maxEvents write ⟨.reconnecting 10,w.relayed⟩ w.source
      ⟨exitPhase (afterReconnect S w).1,(afterReconnect S w).2.relayed⟩
      (afterReconnect S w).2.source [] := by
  have hrec := reconnect_offered S maxEvents write 9 none w.source w.relayed
  rw [afterReconnect]
  cases hr : reconnectRlWithBackoff S 10 none w.source with
  | mk result s =>
    rw [hr] at hrec
    cases result <;> exact hrec

theorem gap_offered (w : World σ τ) (s : σ) (r : Outcome (Option StatsEvent))
    (hs : S.nextEvent w.source = (.ready r,s)) (hr : ∀ event, r ≠ .ok (some event)) :
    ∃ es, Offers S maxEvents write ⟨.selecting,w.relayed⟩ w.source
        ⟨exitPhase (afterReconnect S {w with source := s}).1,
          (afterReconnect S {w with source := s}).2.relayed⟩
        (afterReconnect S {w with source := s}).2.source es ∧
      T.handed (afterReconnect S {w with source := s}).2.sink = T.handed w.sink++es := by
  refine ⟨[],?_,?_⟩
  · have hstep : mainTask maxEvents write ⟨.selecting,w.relayed⟩ (.nextEvent r) =
        some (⟨.reconnecting 10,w.relayed⟩,none) := by
      cases r with
      | error e => rfl
      | ok x =>
        cases x with
        | none => rfl
        | some event => exact absurd rfl (hr event)
    exact offers_trans S maxEvents write _ _ _ _ s _ [] []
      (offers_step S maxEvents write _ _ _ s _ _ [] hstep (.returned r s hs) rfl List.not_mem_nil)
      (afterReconnect_offered S maxEvents write {w with source := s})
  · rw [afterReconnect_sink, List.append_nil]

theorem turn_offered (w : World σ τ) :
    ∃ es, Offers S maxEvents write ⟨.selecting,w.relayed⟩ w.source
        ⟨exitPhase (turn S T maxEvents w).1,(turn S T maxEvents w).2.relayed⟩
        (turn S T maxEvents w).2.source es ∧
      T.handed (turn S T maxEvents w).2.sink = T.handed w.sink++es := by
  unfold turn
  split
  · next s hs =>
    exact ⟨[],offers_step S maxEvents write _ _ _ s .signal none [] rfl (.signalled s hs) rfl
      List.not_mem_nil,(List.append_nil _).symm⟩
  · next event s hs =>
    rw [translateStatsEvent_eq]
    obtain ⟨es,hes,ht⟩ :=
      forward_offered S T maxEvents write (translation event) w.relayed w.sink s
    have hstep : mainTask maxEvents write ⟨.selecting,w.relayed⟩ (.nextEvent (.ok (some event))) =
        some (⟨forwardNext (translation event),w.relayed⟩,none) := by
      simp only [mainTask, translateStatsEvent_eq]
    exact ⟨es,offers_trans S maxEvents write _ _ _ _ s s [] es
      (offers_step S maxEvents write _ _ _ s _ _ [] hstep (.returned _ s hs) rfl
        List.not_mem_nil) hes,ht⟩
  · next s hs => exact gap_offered S T maxEvents write w s (.ok none) hs (by simp)
  · next e s hs => exact gap_offered S T maxEvents write w s (.error e) hs (by simp)

/-- The turns of the loop are steps of the main task, which offers what the
loop hands to its sink. -/
theorem mainLoop_offered (k : ℕ) (w : World σ τ) :
    ∃ es, Offers S maxEvents write ⟨.selecting,w.relayed⟩ w.source
        ⟨exitPhase (mainLoop S T maxEvents k w).1,(mainLoop S T maxEvents k w).2.relayed⟩
        (mainLoop S T maxEvents k w).2.source es ∧
      T.handed (mainLoop S T maxEvents k w).2.sink = T.handed w.sink++es := by
  induction k generalizing w with
  | zero => exact ⟨[],offers_nil S maxEvents write _ _,(List.append_nil _).symm⟩
  | succ k ih =>
    obtain ⟨es,hes,ht⟩ := turn_offered S T maxEvents write w
    rw [mainLoop]
    cases hw : turn S T maxEvents w with
    | mk exit v =>
      rw [hw] at hes ht
      cases exit with
      | some exit => exact ⟨es,hes,ht⟩
      | none =>
        obtain ⟨es',hes',ht'⟩ := ih v
        refine ⟨es++es',offers_trans S maxEvents write _ _ _ _ _ _ _ _ hes hes',?_⟩
        rw [ht', ht, List.append_assoc]

/-- Only the wait for the accept loop can be refused. -/
theorem acts_taken (emitted : List MainAct) (server : Server) (hj : .join ∉ emitted) :
    ∃ server', emitted.foldlM Server.mainStep server = some server' := by
  induction emitted generalizing server with
  | nil => exact ⟨server,rfl⟩
  | cons a emitted ih =>
    have hrest : .join ∉ emitted := fun hmem => hj (List.mem_cons_of_mem a hmem)
    cases a with
    | join => exact absurd List.mem_cons_self hj
    | _ => exact ih _ hrest

/-- The main task on its own, without the other tasks. -/
theorem main_only_run (capacity : ℕ) (m m' : Main) (os : List Occurrence)
    (emitted : List MainAct) (server : Server)
    (h : produce (mainTask maxEvents write) m os = some (m',emitted)) (hj : .join ∉ emitted) :
    ∃ server', run (step (mainTask maxEvents write) capacity) ⟨m,server⟩ (os.map Act.main) =
      some ⟨m',server'⟩ := by
  obtain ⟨server',hserver⟩ := acts_taken emitted server hj
  exact ⟨server',run_alone _ capacity m m' os emitted server server' h hserver⟩

/-- The turns of the loop from the start, with the channel as its sink. -/
def loopFrom (k : ℕ) (source : σ) (subscribers : List ℕ) : Option Exit × World σ Channel :=
  mainLoop S broadcastSink maxEvents k ⟨source,⟨subscribers,[]⟩,0⟩

def handedOver (r : Option Exit × World σ Channel) : List SosEnvelope :=
  broadcastSink.handed r.2.sink

/-- The payloads of the turns and those of a run fed by the same source. -/
structure Matched (r : Option Exit × World σ Channel) (s : System Main) : Prop where
  comparable : s.server.outgoing.offered <+: (handedOver r).map write ∨
    (handedOver r).map write <+: s.server.outgoing.offered
  exited : r.1 ≠ none → s.server.outgoing.offered <+: (handedOver r).map write
  finished : finished s.main.phase = true →
    (handedOver r).map write <+: s.server.outgoing.offered

theorem loopFrom_offered (k : ℕ) (source : σ) (subscribers : List ℕ) :
    Offers S maxEvents write .start source
      ⟨exitPhase (loopFrom S maxEvents k source subscribers).1,
        (loopFrom S maxEvents k source subscribers).2.relayed⟩
      (loopFrom S maxEvents k source subscribers).2.source
      (handedOver (loopFrom S maxEvents k source subscribers)) := by
  obtain ⟨es,hes,hhanded⟩ :=
    mainLoop_offered S broadcastSink maxEvents write k ⟨source,⟨subscribers,[]⟩,0⟩
  have hall : handedOver (loopFrom S maxEvents k source subscribers) = es := hhanded
  rw [hall]
  exact hes

/-- The turns of the loop can be taken by the server. -/
theorem loop_taken (capacity k : ℕ) (source : σ) (subscribers : List ℕ) :
    ∃ acts s, Fed S source (occurrences acts)
        (loopFrom S maxEvents k source subscribers).2.source ∧
      Runs maxEvents write capacity acts s ∧
      s.main = ⟨exitPhase (loopFrom S maxEvents k source subscribers).1,
        (loopFrom S maxEvents k source subscribers).2.relayed⟩ := by
  obtain ⟨os,emitted,hos,hfed,hes,hj⟩ := loopFrom_offered S maxEvents write k source subscribers
  obtain ⟨server,hserver⟩ := main_only_run maxEvents write capacity _ _ os emitted .new hos hj
  refine ⟨os.map Act.main,_,?_,hserver,rfl⟩
  rw [occurrences_main]
  exact hfed

/-- What the main task emits while the source answers it is what the loop hands
over, or the one is a part of the other. -/
theorem loop_comparable (k : ℕ) (source s' : σ) (subscribers : List ℕ) (os' : List Occurrence)
    (m : Main) (emitted' : List MainAct) (hfed : Fed S source os' s')
    (hp : produce (mainTask maxEvents write) .start os' = some (m,emitted')) :
    (payloads emitted' <+: (handedOver (loopFrom S maxEvents k source subscribers)).map write ∨
      (handedOver (loopFrom S maxEvents k source subscribers)).map write <+: payloads emitted') ∧
    ((loopFrom S maxEvents k source subscribers).1 ≠ none →
      payloads emitted' <+: (handedOver (loopFrom S maxEvents k source subscribers)).map write) ∧
    (finished m.phase = true →
      (handedOver (loopFrom S maxEvents k source subscribers)).map write <+:
        payloads emitted') := by
  obtain ⟨os,emitted,hos,hloop,hes,_⟩ := loopFrom_offered S maxEvents write k source subscribers
  have hexit : (loopFrom S maxEvents k source subscribers).1 ≠ none →
      finished (exitPhase (loopFrom S maxEvents k source subscribers).1) = true := by
    intro hne
    cases he : (loopFrom S maxEvents k source subscribers).1 with
    | none => exact absurd he hne
    | some exit => cases exit <;> rfl
  rcases fed_comparable S maxEvents write _ _ _ source _ _ _ os _ emitted hfed hloop hp
    hos with hle | hle
  · obtain ⟨hpart,hsame⟩ := produce_part maxEvents write _ _ _ _ _ _ _ hle hp hos
    rw [hes] at hpart hsame
    exact ⟨.inl hpart,fun _ => hpart,fun hf => by rw [hsame hf]⟩
  · obtain ⟨hpart,hsame⟩ := produce_part maxEvents write _ _ _ _ _ _ _ hle hos hp
    rw [hes] at hpart hsame
    exact ⟨.inr hpart,fun hne => by rw [hsame (hexit hne)],fun _ => hpart⟩

theorem loop_matched (capacity k : ℕ) (source s' : σ) (subscribers : List ℕ)
    (acts : List (Act Occurrence)) (s : System Main) (hfed : Fed S source (occurrences acts) s')
    (h : Runs maxEvents write capacity acts s) :
    Matched write (loopFrom S maxEvents k source subscribers) s := by
  obtain ⟨emitted,hp⟩ := run_produced (mainTask maxEvents write) capacity .start acts s h
  have hoffered : s.server.outgoing.offered = payloads emitted := hp.offered
  obtain ⟨hcomparable,hexited,hfinished⟩ := loop_comparable S maxEvents write k source s'
    subscribers _ _ emitted hfed hp.produced
  rw [← hoffered] at hcomparable hexited hfinished
  exact ⟨hcomparable,hexited,hfinished⟩

/-- The server refines the sequential loop. Its main task can take the loop's
turns, and in every run that the same source feeds, however the other tasks
come in between, what is offered agrees with what the loop hands over: neither
has anything else than the other is to get to. -/
theorem loop_served (capacity k : ℕ) (source : σ) (subscribers : List ℕ) :
    (∃ acts s, Fed S source (occurrences acts)
        (loopFrom S maxEvents k source subscribers).2.source ∧
      Runs maxEvents write capacity acts s ∧
      s.main = ⟨exitPhase (loopFrom S maxEvents k source subscribers).1,
        (loopFrom S maxEvents k source subscribers).2.relayed⟩) ∧
    ∀ acts s s', Fed S source (occurrences acts) s' → Runs maxEvents write capacity acts s →
      Matched write (loopFrom S maxEvents k source subscribers) s ∧
      ∀ c ∈ s.server.clients,
        c.written.Sublist (s.server.outgoing.offered.drop c.receiver.first) := by
  refine ⟨loop_taken S maxEvents write capacity k source subscribers,?_⟩
  intro acts s s' hfed h
  refine ⟨loop_matched S maxEvents write capacity k source s' subscribers acts s hfed h,?_⟩
  intro c hc
  exact kept_sublist capacity _ c
    ((run_kept (mainTask maxEvents write) capacity .start acts s h).clients c hc)

end Loop

end RlStatsApi.BroadcastServer
