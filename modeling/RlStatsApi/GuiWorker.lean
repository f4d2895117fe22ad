import RlStatsApi.BroadcastGui
import RlStatsApi.BroadcastServer

/-!
# The worker behind the window

It connects to the game, opens the server and then does what the broadcaster
of the command line does, but looks for the request to stop wherever it waits,
also between two attempts to reconnect. Its server therefore goes through the
states of the other's, whatever the order of the tasks.
-/

set_option autoImplicit false

namespace RlStatsApi.GuiWorker
open RlStatsApi.Error RlStatsApi.EventParsing RlStatsApi.SosTranslation RlStatsApi.RelayLoop
open RlStatsApi.LabelledRuns RlStatsApi.BoundedBroadcast RlStatsApi.OverlayClients
open RlStatsApi.BroadcastServer (MainPhase forwardNext returned returned_append translations)
open RlStatsApi.BroadcastGui (WorkerEvent App fixedSource fixedWsUrl maxLogLines)

/-! ## The worker -/

/-- An attempt to connect is checked, tried and, if it fails, slept after. -/
inductive Phase where
  | connecting (attempt : ℕ)
  | trying (attempt : ℕ)
  | pausing (attempt : ℕ)
  | binding
  | selecting
  | forwarding (e : SosEnvelope) (rest : List SosEnvelope)
  | reporting (rest : List SosEnvelope)
  | reconnecting (attempt : ℕ)
  | retrying (attempt : ℕ)
  | resting (attempt : ℕ)
  | stopping
  | joining
  | over (result : Except String Unit)

/-- `requested` is what the window does; an attempt without an error text has
timed out. -/
inductive Occurrence where
  | requested
  | checked
  | shutdownSeen
  | connected
  | connectFailed (error : Option String)
  | slept
  | bound
  | bindFailed (error : String)
  | nextEvent (r : Outcome (Option StatsEvent))
  | forwarded
  | reported
  | reconnected
  | reconnectFailed (error : String)
  | shutdownSent
  | joined

/-- The events are all that were sent to the window. -/
structure Worker where
  phase : Phase
  relayed : ℕ
  requested : Bool
  listening : Bool
  lastError : Option String
  events : List WorkerEvent

def Worker.start : Worker :=
  ⟨.connecting 1,0,false,false,none,[.log ("Connecting to RL Stats API at "++fixedSource)]⟩

def Worker.log (w : Worker) (message : String) : Worker :=
  {w with events := w.events++[.log message]}

def Worker.cancelled (w : Worker) : Worker :=
  {w.log "Startup cancelled" with phase := .over (.ok ())}

def Worker.shutdownRequested (w : Worker) : Worker :=
  {w.log "Shutdown requested" with phase := .stopping}

def Worker.failed (w : Worker) (otherwise : String) : Worker :=
  {w with phase := .over (.error (w.lastError.getD otherwise))}

/-- The accept loop is there before the window is told. -/
def Worker.opened (w : Worker) : Worker :=
  {w.log ("Connected to RL Stats API at "++fixedSource) with
    phase := .selecting
    listening := true
    events := (w.log ("Connected to RL Stats API at "++fixedSource)).events++
      [.started fixedSource fixedWsUrl]}

def Worker.report (w : Worker) : Worker :=
  {w with events := w.events++[.relayed w.relayed]}

/-- The first attempt is not announced. -/
def Worker.announced (w : Worker) (attempt : ℕ) : Worker :=
  if 1 < attempt then
    w.log ("Retrying RL Stats API connection (attempt "++toString attempt++"/20)...")
  else w

def forwardPhase : List SosEnvelope → Phase
  | [] => .selecting
  | e::rest => .forwarding e rest

/-- Before the listener is there. -/
def starting : Phase → Bool
  | .connecting _ => true
  | .trying _ => true
  | .pausing _ => true
  | .binding => true
  | _ => false

/-- The attempt to reconnect it is at. -/
def retry : Phase → Option ℕ
  | .reconnecting k => some k
  | .retrying k => some k
  | .resting k => some k
  | _ => none

/-- The event that an occurrence brings. -/
def received : Occurrence → List StatsEvent
  | .nextEvent (.ok (some event)) => [event]
  | _ => []

section Task

variable (maxEvents : Option ℕ) (write : SosEnvelope → String) (display : RlStatsError → String)

def reached (relayed : ℕ) : Bool := maxEvents.any (fun max => decide (max ≤ relayed))

def workerTask (w : Worker) : Occurrence → Option (Worker × Option MainAct)
  | .requested => some ({w with requested := true},none)
  | .checked =>
    match w.phase with
    | .connecting k =>
      if w.requested = true then some (w.cancelled,none)
      else some ({w.announced k with phase := .trying k},none)
    | .reconnecting k =>
      if w.requested = true then some (w.shutdownRequested,none)
      else some ({w.log ("Reconnecting to RL Stats API (attempt "++toString k++"/10)...") with
        phase := .retrying k},none)
    | _ => none
  | .shutdownSeen =>
    if w.requested = true then
      match w.phase with
      | .trying _ | .pausing _ => some (w.cancelled,none)
      | .selecting | .retrying _ | .resting _ => some (w.shutdownRequested,none)
      | _ => none
    else none
  | .connected =>
    match w.phase with
    | .trying _ => some ({w with phase := .binding},none)
    | _ => none
  | .connectFailed error =>
    match w.phase with
    | .trying k =>
      match error with
      | some error => some ({w.log ("Initial connection failed on attempt "++toString k++"/20: "++
          error) with phase := .pausing k, lastError := some error},none)
      | none => some ({w with
          phase := .pausing k, lastError := some "initial connection attempt timed out"},none)
    | _ => none
  | .slept =>
    match w.phase with
    | .pausing k =>
      if k < 20 then some ({w with phase := .connecting (k+1)},none)
      else some (w.failed "Failed to connect to RL Stats API",none)
    | .resting k =>
      if k < 10 then some ({w with phase := .reconnecting (k+1)},none)
      else some (w.failed "Reconnect failed",some .fail)
    | _ => none
  | .bound =>
    match w.phase with
    | .binding => some (w.opened,none)
    | _ => none
  | .bindFailed error =>
    match w.phase with
    | .binding => some ({w with phase := .over (.error error)},none)
    | _ => none
  | .nextEvent r =>
    match w.phase, r with
    | .selecting, .ok (some event) =>
      match translateStatsEvent event with
      | .ok envelopes => some ({w with phase := forwardPhase envelopes},none)
      | .error e => some ({w with phase := .over (.error (display e))},some .fail)
    | .selecting, .ok none =>
      some ({w.log "RL event stream closed; reconnecting..." with
        phase := .reconnecting 1, lastError := none},none)
    | .selecting, .error e =>
      some ({w.log ("RL stream error: "++display e++"; reconnecting...") with
        phase := .reconnecting 1, lastError := none},none)
    | _, _ => none
  | .forwarded =>
    match w.phase with
    | .forwarding e rest =>
      some ({w with phase := .reporting rest, relayed := w.relayed+1},some (.send (write e)))
    | _ => none
  | .reported =>
    match w.phase with
    | .reporting rest =>
      if reached maxEvents w.relayed = true then
        some ({w.report.log ("Max events reached ("++toString w.relayed++"); stopping") with
          phase := .stopping},none)
      else some ({w.report with phase := forwardPhase rest},none)
    | _ => none
  | .reconnected =>
    match w.phase with
    | .retrying _ =>
      some ({w.log ("Reconnected to RL Stats API at "++fixedSource) with phase := .selecting},none)
    | _ => none
  | .reconnectFailed error =>
    match w.phase with
    | .retrying k => some ({w with phase := .resting k, lastError := some error},none)
    | _ => none
  | .shutdownSent =>
    match w.phase with
    | .stopping => some ({w with phase := .joining},some .shutdown)
    | _ => none
  | .joined =>
    match w.phase with
    | .joining => some ({w with phase := .over (.ok ())},some .join)
    | _ => none

/-- What a step may do, one constructor for each way the match goes. -/
inductive TaskStepped (w : Worker) : Occurrence → Worker → Option MainAct → Prop
  | requested : TaskStepped w .requested {w with requested := true} none
  | cancelled (o : Occurrence) (hp : starting w.phase = true) (ho : received o = []) :
      TaskStepped w o w.cancelled none
  | attempted (k : ℕ) (hp : w.phase = .connecting k) :
      TaskStepped w .checked {w.announced k with phase := .trying k} none
  | connected (k : ℕ) (hp : w.phase = .trying k) :
      TaskStepped w .connected {w with phase := .binding} none
  | refused (k : ℕ) (error : String) (hp : w.phase = .trying k) :
      TaskStepped w (.connectFailed (some error))
        {w.log ("Initial connection failed on attempt "++toString k++"/20: "++error) with
          phase := .pausing k, lastError := some error} none
  | timedOut (k : ℕ) (hp : w.phase = .trying k) :
      TaskStepped w (.connectFailed none)
        {w with phase := .pausing k, lastError := some "initial connection attempt timed out"} none
  | paused (k : ℕ) (hp : w.phase = .pausing k) (hk : k < 20) :
      TaskStepped w .slept {w with phase := .connecting (k+1)} none
  | startupFailed (k : ℕ) (hp : w.phase = .pausing k) (hk : ¬k < 20) :
      TaskStepped w .slept (w.failed "Failed to connect to RL Stats API") none
  | bindFailed (error : String) (hp : w.phase = .binding) :
      TaskStepped w (.bindFailed error) {w with phase := .over (.error error)} none
  | bound (hp : w.phase = .binding) : TaskStepped w .bound w.opened none
  | event (event : StatsEvent) (hp : w.phase = .selecting) :
      TaskStepped w (.nextEvent (.ok (some event)))
        {w with phase := forwardPhase (translation event)} none
  | gap (r : Outcome (Option StatsEvent)) (message : String) (hp : w.phase = .selecting)
      (hr : ∀ event, r ≠ .ok (some event)) :
      TaskStepped w (.nextEvent r)
        {w.log message with phase := .reconnecting 1, lastError := none} none
  | signalled (hp : w.phase = .selecting) :
      TaskStepped w .shutdownSeen w.shutdownRequested none
  | cutShort (o : Occurrence) (k : ℕ) (hp : retry w.phase = some k) (ho : received o = []) :
      TaskStepped w o w.shutdownRequested none
  | reattempted (k : ℕ) (hp : w.phase = .reconnecting k) :
      TaskStepped w .checked
        {w.log ("Reconnecting to RL Stats API (attempt "++toString k++"/10)...") with
          phase := .retrying k} none
  | reconnected (k : ℕ) (hp : w.phase = .retrying k) :
      TaskStepped w .reconnected
        {w.log ("Reconnected to RL Stats API at "++fixedSource) with phase := .selecting} none
  | reconnectFailed (k : ℕ) (error : String) (hp : w.phase = .retrying k) :
      TaskStepped w (.reconnectFailed error)
        {w with phase := .resting k, lastError := some error} none
  | rested (k : ℕ) (hp : w.phase = .resting k) (hk : k < 10) :
      TaskStepped w .slept {w with phase := .reconnecting (k+1)} none
  | gaveUp (k : ℕ) (hp : w.phase = .resting k) (hk : ¬k < 10) :
      TaskStepped w .slept (w.failed "Reconnect failed") (some .fail)
  | forwarded (e : SosEnvelope) (rest : List SosEnvelope) (hp : w.phase = .forwarding e rest) :
      TaskStepped w .forwarded {w with phase := .reporting rest, relayed := w.relayed+1}
        (some (.send (write e)))
  | reported (rest : List SosEnvelope) (hp : w.phase = .reporting rest)
      (hmax : reached maxEvents w.relayed = false) :
      TaskStepped w .reported {w.report with phase := forwardPhase rest} none
  | last (rest : List SosEnvelope) (hp : w.phase = .reporting rest)
      (hmax : reached maxEvents w.relayed = true) :
      TaskStepped w .reported
        {w.report.log ("Max events reached ("++toString w.relayed++"); stopping") with
          phase := .stopping} none
  | shutdownSent (hp : w.phase = .stopping) :
      TaskStepped w .shutdownSent {w with phase := .joining} (some .shutdown)
  | joined (hp : w.phase = .joining) :
      TaskStepped w .joined {w with phase := .over (.ok ())} (some .join)

theorem task_cases (w : Worker) (o : Occurrence) (w' : Worker) (a : Option MainAct)
    (h : workerTask maxEvents write display w o = some (w',a)) :
    TaskStepped maxEvents write w o w' a := by
  cases o with
  | requested =>
    cases h
    exact .requested
  | checked =>
    simp only [workerTask] at h
    split at h
    · next k hp =>
      split_ifs at h
      · cases h
        exact .cancelled _ (by rw [hp]; rfl) rfl
      · cases h
        exact .attempted k hp
    · next k hp =>
      split_ifs at h
      · cases h
        exact .cutShort _ k (by rw [hp]; rfl) rfl
      · cases h
        exact .reattempted k hp
    · cases h
  | shutdownSeen =>
    simp only [workerTask] at h
    split_ifs at h
    split at h
    · next k hp =>
      cases h
      exact .cancelled _ (by rw [hp]; rfl) rfl
    · next k hp =>
      cases h
      exact .cancelled _ (by rw [hp]; rfl) rfl
    · next hp =>
      cases h
      exact .signalled hp
    · next k hp =>
      cases h
      exact .cutShort _ k (by rw [hp]; rfl) rfl
    · next k hp =>
      cases h
      exact .cutShort _ k (by rw [hp]; rfl) rfl
    · cases h
  | connected =>
    simp only [workerTask] at h
    split at h
    · next k hp =>
      cases h
      exact .connected k hp
    · cases h
  | connectFailed error =>
    simp only [workerTask] at h
    split at h
    · next k hp =>
      cases error with
      | some error =>
        cases h
        exact .refused k error hp
      | none =>
        cases h
        exact .timedOut k hp
    · cases h
  | slept =>
    simp only [workerTask] at h
    split at h
    · next k hp =>
      split_ifs at h with hk
      · cases h
        exact .paused k hp hk
      · cases h
        exact .startupFailed k hp hk
    · next k hp =>
      split_ifs at h with hk
      · cases h
        exact .rested k hp hk
      · cases h
        exact .gaveUp k hp hk
    · cases h
  | bound =>
    simp only [workerTask] at h
    split at h
    · next hp =>
      cases h
      exact .bound hp
    · cases h
  | bindFailed error =>
    simp only [workerTask] at h
    split at h
    · next hp =>
      cases h
      exact .bindFailed error hp
    · cases h
  | nextEvent r =>
    simp only [workerTask] at h
    split at h
    · next event hp =>
      rw [translateStatsEvent_eq] at h
      cases h
      exact .event event hp
    · next hp =>
      cases h
      exact .gap _ _ hp (by simp)
    · next e hp =>
      cases h
      exact .gap _ _ hp (by simp)
    · cases h
  | forwarded =>
    simp only [workerTask] at h
    split at h
    · next e rest hp =>
      cases h
      exact .forwarded e rest hp
    · cases h
  | reported =>
    simp only [workerTask] at h
    split at h
    · next rest hp =>
      split_ifs at h with hmax
      · cases h
        exact .last rest hp hmax
      · cases h
        exact .reported rest hp (by simpa using hmax)
    · cases h
  | reconnected =>
    simp only [workerTask] at h
    split at h
    · next k hp =>
      cases h
      exact .reconnected k hp
    · cases h
  | reconnectFailed error =>
    simp only [workerTask] at h
    split at h
    · next k hp =>
      cases h
      exact .reconnectFailed k error hp
    · cases h
  | shutdownSent =>
    simp only [workerTask] at h
    split at h
    · next hp =>
      cases h
      exact .shutdownSent hp
    · cases h
  | joined =>
    simp only [workerTask] at h
    split at h
    · next hp =>
      cases h
      exact .joined hp
    · cases h

/-- There are no other tasks before the listener is there. -/
def step (capacity : ℕ) (s : System Worker) : Act Occurrence → Option (System Worker)
  | .main o => (workerTask maxEvents write display s.main o).bind (perform s.server)
  | .task a =>
    if s.main.listening = true then
      (s.server.step capacity a).map (fun server => ⟨s.main,server⟩)
    else none

def Runs (capacity : ℕ) (acts : List (Act Occurrence)) (s : System Worker) : Prop :=
  run (step maxEvents write display capacity) ⟨.start,.new⟩ acts = some s

/-! ## The broadcaster it stands for -/

/-- An attempt to reconnect is one of those that are left. What it has yet to
report was sent. -/
def broadcaster (w : Worker) : BroadcastServer.Main :=
  ⟨match w.phase with
    | .connecting _ | .trying _ | .pausing _ | .binding | .selecting => .selecting
    | .forwarding e rest => .forwarding e rest
    | .reporting rest => if reached maxEvents w.relayed = true then .stopping else forwardNext rest
    | .reconnecting k | .retrying k | .resting k => .reconnecting (11-k)
    | .stopping => .stopping
    | .joining => .joining
    | .over _ => if w.listening = true then .over else .selecting,w.relayed⟩

/-- There are no more than ten attempts to reconnect, and none before the
listener is there. -/
structure Sound (w : Worker) : Prop where
  startup : starting w.phase = true → w.listening = false
  listening : starting w.phase = false → w.listening = true ∨ ∃ r, w.phase = .over r
  attempts : ∀ k, retry w.phase = some k → 1 ≤ k ∧ k ≤ 10

theorem start_sound : Sound .start :=
  ⟨fun _ => rfl,fun h => absurd h (by simp [Worker.start, starting]),fun k h => by cases h⟩

/-- The listener stays as it is while the worker starts up. -/
theorem startup_sound (w w' : Worker) (hw : Sound w) (hp : starting w.phase = true)
    (hl : w'.listening = w.listening)
    (hp' : starting w'.phase = true ∨ ∃ r, w'.phase = .over r) : Sound w' := by
  refine ⟨fun _ => hl.trans (hw.startup hp),fun hs => ?_,fun k hk => ?_⟩
  · rcases hp' with hp' | hp'
    · rw [hp'] at hs
      cases hs
    · exact .inr hp'
  · rcases hp' with hp' | ⟨r,hp'⟩
    · cases hphase : w'.phase <;> rw [hphase] at hp' hk <;> cases hp' <;> cases hk
    · rw [hp'] at hk
      cases hk

theorem listening_sound (w' : Worker) (hl : w'.listening = true)
    (hp : starting w'.phase = false) (hk : ∀ k, retry w'.phase = some k → 1 ≤ k ∧ k ≤ 10) :
    Sound w' :=
  ⟨fun h => absurd h (by simp [hp]),fun _ => .inl hl,hk⟩

@[simp] theorem starting_forwardPhase (es : List SosEnvelope) :
    starting (forwardPhase es) = false := by
  cases es <;> rfl

@[simp] theorem retry_forwardPhase (es : List SosEnvelope) : retry (forwardPhase es) = none := by
  cases es <;> rfl

/-- A worker that is past its start and not over has its listener. -/
theorem sound_listening (w : Worker) (hw : Sound w) (hs : starting w.phase = false)
    (ho : ∀ r, w.phase ≠ .over r) : w.listening = true := by
  rcases hw.listening hs with hl | ⟨r,hr⟩
  · exact hl
  · exact absurd hr (ho r)

theorem retry_listening (w : Worker) (hw : Sound w) (k : ℕ) (hk : retry w.phase = some k) :
    w.listening = true := by
  apply sound_listening w hw
  · cases hp : w.phase <;> rw [hp] at hk <;> first | rfl | cases hk
  · intro r hr
    rw [hr] at hk
    cases hk

theorem announced_listening (w : Worker) (k : ℕ) : (w.announced k).listening = w.listening := by
  unfold Worker.announced
  split <;> rfl

theorem task_sound (w : Worker) (o : Occurrence) (w' : Worker) (a : Option MainAct) (hw : Sound w)
    (h : TaskStepped maxEvents write w o w' a) : Sound w' := by
  cases h with
  | requested => exact ⟨hw.startup,hw.listening,hw.attempts⟩
  | cancelled _ hp _ => exact startup_sound w _ hw hp rfl (.inr ⟨_,rfl⟩)
  | attempted k hp =>
    exact startup_sound w _ hw (by rw [hp]; rfl) (announced_listening w k) (.inl rfl)
  | connected k hp => exact startup_sound w _ hw (by rw [hp]; rfl) rfl (.inl rfl)
  | refused k error hp => exact startup_sound w _ hw (by rw [hp]; rfl) rfl (.inl rfl)
  | timedOut k hp => exact startup_sound w _ hw (by rw [hp]; rfl) rfl (.inl rfl)
  | paused k hp hk => exact startup_sound w _ hw (by rw [hp]; rfl) rfl (.inl rfl)
  | startupFailed k hp hk => exact startup_sound w _ hw (by rw [hp]; rfl) rfl (.inr ⟨_,rfl⟩)
  | bindFailed error hp => exact startup_sound w _ hw (by rw [hp]; rfl) rfl (.inr ⟨_,rfl⟩)
  | bound hp => exact listening_sound _ rfl rfl (fun k hk => by cases hk)
  | event event hp =>
    have hl := sound_listening w hw (by rw [hp]; rfl) (by simp [hp])
    exact listening_sound _ hl (starting_forwardPhase _) (fun k hk => by simp at hk)
  | gap r message hp hr =>
    have hl := sound_listening w hw (by rw [hp]; rfl) (by simp [hp])
    refine listening_sound _ hl rfl (fun k hk => ?_)
    cases hk
    exact ⟨Nat.le_refl 1,by omega⟩
  | signalled hp =>
    have hl := sound_listening w hw (by rw [hp]; rfl) (by simp [hp])
    exact listening_sound _ hl rfl (fun k hk => by cases hk)
  | cutShort _ k hp _ =>
    exact listening_sound _ (retry_listening w hw k hp) rfl (fun k hk => by cases hk)
  | reattempted k hp =>
    have hk : retry w.phase = some k := by rw [hp]; rfl
    refine listening_sound _ (retry_listening w hw k hk) rfl (fun j hj => ?_)
    cases hj
    exact hw.attempts k hk
  | reconnected k hp =>
    have hk : retry w.phase = some k := by rw [hp]; rfl
    exact listening_sound _ (retry_listening w hw k hk) rfl (fun j hj => by cases hj)
  | reconnectFailed k error hp =>
    have hk : retry w.phase = some k := by rw [hp]; rfl
    refine listening_sound _ (retry_listening w hw k hk) rfl (fun j hj => ?_)
    cases hj
    exact hw.attempts k hk
  | rested k hp hlt =>
    have hk : retry w.phase = some k := by rw [hp]; rfl
    refine listening_sound _ (retry_listening w hw k hk) rfl (fun j hj => ?_)
    cases hj
    exact ⟨by omega,by omega⟩
  | gaveUp k hp hlt =>
    have hk : retry w.phase = some k := by rw [hp]; rfl
    exact listening_sound _ (retry_listening w hw k hk) rfl (fun j hj => by cases hj)
  | forwarded e rest hp =>
    have hl := sound_listening w hw (by rw [hp]; rfl) (by simp [hp])
    exact listening_sound _ hl rfl (fun k hk => by cases hk)
  | reported rest hp hmax =>
    have hl := sound_listening w hw (by rw [hp]; rfl) (by simp [hp])
    exact listening_sound _ hl (starting_forwardPhase _) (fun k hk => by simp at hk)
  | last rest hp hmax =>
    have hl := sound_listening w hw (by rw [hp]; rfl) (by simp [hp])
    exact listening_sound _ hl rfl (fun k hk => by cases hk)
  | shutdownSent hp =>
    have hl := sound_listening w hw (by rw [hp]; rfl) (by simp [hp])
    exact listening_sound _ hl rfl (fun k hk => by cases hk)
  | joined hp =>
    have hl := sound_listening w hw (by rw [hp]; rfl) (by simp [hp])
    exact listening_sound _ hl rfl (fun k hk => by cases hk)

/-- The broadcaster gets from what the one worker stands for to what the other
does, with the same events and the same acts. -/
def Simulated (w : Worker) (o : Occurrence) (w' : Worker) (a : Option MainAct) : Prop :=
  ∃ os, produce (BroadcastServer.mainTask maxEvents write) (broadcaster maxEvents w) os =
    some (broadcaster maxEvents w',a.toList) ∧ returned os = received o

theorem stays_simulated (w : Worker) (o : Occurrence) (w' : Worker) (ho : received o = [])
    (hw : broadcaster maxEvents w' = broadcaster maxEvents w) :
    Simulated maxEvents write w o w' none :=
  ⟨[],by rw [hw]; rfl,ho.symm⟩

theorem moves_simulated (w : Worker) (o : Occurrence) (w' : Worker) (a : Option MainAct)
    (o' : BroadcastServer.Occurrence) (ho : returned [o'] = received o)
    (h : BroadcastServer.mainTask maxEvents write (broadcaster maxEvents w) o' =
      some (broadcaster maxEvents w',a)) : Simulated maxEvents write w o w' a := by
  refine ⟨[o'],?_,ho⟩
  rw [produce, h]
  simp [produce]

theorem broadcaster_starting (w : Worker) (hp : starting w.phase = true) :
    broadcaster maxEvents w = ⟨.selecting,w.relayed⟩ := by
  cases hphase : w.phase <;> simp_all [broadcaster, starting]

theorem broadcaster_startup (w w' : Worker) (hw : Sound w) (hp : starting w.phase = true)
    (hl : w'.listening = w.listening) (hr : w'.relayed = w.relayed)
    (hp' : starting w'.phase = true ∨ ∃ r, w'.phase = .over r) :
    broadcaster maxEvents w' = broadcaster maxEvents w := by
  rw [broadcaster_starting maxEvents w hp, ← hr]
  rcases hp' with hp' | ⟨r,hr'⟩
  · exact broadcaster_starting maxEvents w' hp'
  · simp [broadcaster, hr', hl, hw.startup hp]

theorem broadcaster_retry (w : Worker) (k : ℕ) (hp : retry w.phase = some k) :
    broadcaster maxEvents w = ⟨.reconnecting (11-k),w.relayed⟩ := by
  cases hphase : w.phase <;> rw [hphase] at hp <;> cases hp <;> simp [broadcaster, hphase]

theorem broadcaster_forwardPhase (w : Worker) (es : List SosEnvelope)
    (hp : w.phase = forwardPhase es) :
    broadcaster maxEvents w = ⟨forwardNext es,w.relayed⟩ := by
  cases es <;> simp [broadcaster, hp, forwardPhase, forwardNext]

/-- Between two attempts a request to stop is to the broadcaster a successful
attempt and a signal after it. -/
theorem cut_simulated (w : Worker) (o : Occurrence) (k : ℕ) (hw : Sound w)
    (hp : retry w.phase = some k) (ho : received o = []) :
    Simulated maxEvents write w o w.shutdownRequested none := by
  obtain ⟨h1,h10⟩ := hw.attempts k hp
  have hleft : 11-k = (10-k)+1 := by omega
  refine ⟨[.reconnected,.signal],?_,ho.symm⟩
  rw [broadcaster_retry maxEvents w k hp, hleft]
  rfl

theorem task_simulated (w : Worker) (o : Occurrence) (w' : Worker) (a : Option MainAct)
    (hw : Sound w) (h : TaskStepped maxEvents write w o w' a) :
    Simulated maxEvents write w o w' a := by
  have hstart : ∀ o w', starting w.phase = true → received o = [] → w'.listening = w.listening →
      w'.relayed = w.relayed → (starting w'.phase = true ∨ ∃ r, w'.phase = .over r) →
      Simulated maxEvents write w o w' none := fun o w' hp ho hl hr hp' =>
    stays_simulated maxEvents write w o w' ho (broadcaster_startup maxEvents w w' hw hp hl hr hp')
  cases h with
  | requested => exact stays_simulated maxEvents write w _ _ rfl rfl
  | cancelled o hp ho => exact hstart o _ hp ho rfl rfl (.inr ⟨_,rfl⟩)
  | attempted k hp =>
    have hr : (w.announced k).relayed = w.relayed := by
      unfold Worker.announced
      split <;> rfl
    exact hstart _ _ (by rw [hp]; rfl) rfl (announced_listening w k) hr (.inl rfl)
  | connected k hp => exact hstart _ _ (by rw [hp]; rfl) rfl rfl rfl (.inl rfl)
  | refused k error hp => exact hstart _ _ (by rw [hp]; rfl) rfl rfl rfl (.inl rfl)
  | timedOut k hp => exact hstart _ _ (by rw [hp]; rfl) rfl rfl rfl (.inl rfl)
  | paused k hp hk => exact hstart _ _ (by rw [hp]; rfl) rfl rfl rfl (.inl rfl)
  | startupFailed k hp hk => exact hstart _ _ (by rw [hp]; rfl) rfl rfl rfl (.inr ⟨_,rfl⟩)
  | bindFailed error hp => exact hstart _ _ (by rw [hp]; rfl) rfl rfl rfl (.inr ⟨_,rfl⟩)
  | bound hp =>
    refine stays_simulated maxEvents write w _ _ rfl ?_
    rw [broadcaster_starting maxEvents w (by rw [hp]; rfl)]
    rfl
  | event event hp =>
    refine moves_simulated maxEvents write w _ _ none (.nextEvent (.ok (some event))) rfl ?_
    have hnext := broadcaster_forwardPhase maxEvents
      {w with phase := forwardPhase (translation event)} (translation event) rfl
    rw [hnext]
    simp [broadcaster, hp, BroadcastServer.mainTask, translateStatsEvent_eq]
  | gap r message hp hr =>
    refine moves_simulated maxEvents write w _ _ none (.nextEvent r) ?_ ?_
    · cases r with
      | error e => rfl
      | ok x =>
        cases x with
        | none => rfl
        | some event => rfl
    · cases r with
      | error e => simp [broadcaster, hp, BroadcastServer.mainTask, Worker.log]
      | ok x =>
        cases x with
        | none => simp [broadcaster, hp, BroadcastServer.mainTask, Worker.log]
        | some event => exact absurd rfl (hr event)
  | signalled hp =>
    refine moves_simulated maxEvents write w _ _ none .signal rfl ?_
    simp [broadcaster, hp, BroadcastServer.mainTask, Worker.shutdownRequested, Worker.log]
  | cutShort o k hp ho => exact cut_simulated maxEvents write w o k hw hp ho
  | reattempted k hp =>
    refine stays_simulated maxEvents write w _ _ rfl ?_
    rw [broadcaster_retry maxEvents w k (by rw [hp]; rfl)]
    rfl
  | reconnected k hp =>
    have hk : retry w.phase = some k := by rw [hp]; rfl
    obtain ⟨h1,h10⟩ := hw.attempts k hk
    have hleft : 11-k = (10-k)+1 := by omega
    refine moves_simulated maxEvents write w _ _ none .reconnected rfl ?_
    rw [broadcaster_retry maxEvents w k hk, hleft]
    rfl
  | reconnectFailed k error hp =>
    refine stays_simulated maxEvents write w _ _ rfl ?_
    rw [broadcaster_retry maxEvents w k (by rw [hp]; rfl)]
    rfl
  | rested k hp hlt =>
    have hk : retry w.phase = some k := by rw [hp]; rfl
    have hleft : 11-k = (9-k)+1+1 := by omega
    have hnext : 11-(k+1) = 9-k+1 := by omega
    refine moves_simulated maxEvents write w _ _ none .reconnectFailed rfl ?_
    rw [broadcaster_retry maxEvents w k hk, broadcaster_retry maxEvents _ (k+1) rfl, hleft, hnext]
    rfl
  | gaveUp k hp hlt =>
    have hk : retry w.phase = some k := by rw [hp]; rfl
    obtain ⟨h1,h10⟩ := hw.attempts k hk
    have hten : k = 10 := by omega
    subst hten
    refine moves_simulated maxEvents write w _ _ (some .fail) .reconnectFailed rfl ?_
    rw [broadcaster_retry maxEvents w 10 hk]
    simp [broadcaster, BroadcastServer.mainTask, Worker.failed, retry_listening w hw 10 hk]
  | forwarded e rest hp =>
    refine moves_simulated maxEvents write w _ _ _ .forwarded rfl ?_
    simp only [broadcaster, hp, BroadcastServer.mainTask]
    rfl
  | reported rest hp hmax =>
    refine stays_simulated maxEvents write w _ _ rfl ?_
    have hnext := broadcaster_forwardPhase maxEvents {w.report with phase := forwardPhase rest}
      rest rfl
    rw [hnext]
    simp [broadcaster, hp, hmax, Worker.report]
  | last rest hp hmax =>
    refine stays_simulated maxEvents write w _ _ rfl ?_
    simp [broadcaster, hp, hmax, Worker.report, Worker.log]
  | shutdownSent hp =>
    refine moves_simulated maxEvents write w _ _ _ .shutdownSent rfl ?_
    simp [broadcaster, hp, BroadcastServer.mainTask]
  | joined hp =>
    have hl := sound_listening w hw (by rw [hp]; rfl) (by simp [hp])
    refine moves_simulated maxEvents write w _ _ _ .joined rfl ?_
    simp [broadcaster, hp, hl, BroadcastServer.mainTask]

/-! ## Runs of the worker -/

variable (capacity : ℕ)

inductive Stepped (s : System Worker) : Act Occurrence → System Worker → Prop
  | main (o : Occurrence) (w : Worker) (a : Option MainAct) (server : Server)
      (hw : TaskStepped maxEvents write s.main o w a)
      (ha : a.toList.foldlM Server.mainStep s.server = some server) :
      Stepped s (.main o) ⟨w,server⟩
  | task (a : TaskAct) (server : Server) (hl : s.main.listening = true)
      (ha : s.server.step capacity a = some server) : Stepped s (.task a) ⟨s.main,server⟩

theorem step_cases (s : System Worker) (a : Act Occurrence) (s' : System Worker)
    (h : step maxEvents write display capacity s a = some s') :
    Stepped maxEvents write capacity s a s' := by
  cases a with
  | main o =>
    obtain ⟨⟨w,act⟩,hw,h⟩ := Option.bind_eq_some_iff.mp h
    have hw := task_cases maxEvents write display s.main o w act hw
    cases act with
    | none =>
      cases h
      exact .main o w none s.server hw rfl
    | some act =>
      obtain ⟨server,ha,rfl⟩ := Option.map_eq_some_iff.mp h
      exact .main o w (some act) server hw (by simp [ha])
  | task a =>
    simp only [step] at h
    split_ifs at h with hl
    obtain ⟨server,ha,rfl⟩ := Option.map_eq_some_iff.mp h
    exact .task a server hl ha

/-- A run of the broadcaster with the same events, in which the other tasks do
the same. -/
def Mirrored (past : List (Act Occurrence)) (s : System Worker) : Prop :=
  ∃ acts, BroadcastServer.Runs maxEvents write capacity acts
      ⟨broadcaster maxEvents s.main,s.server⟩ ∧
    returned (occurrences acts) = (occurrences past).flatMap received ∧ tasks acts = tasks past

theorem step_mirrored (past : List (Act Occurrence)) (s : System Worker) (a : Act Occurrence)
    (s' : System Worker) (hs : Sound s.main ∧ Mirrored maxEvents write capacity past s)
    (h : step maxEvents write display capacity s a = some s') :
    Sound s'.main ∧ Mirrored maxEvents write capacity (past++[a]) s' := by
  obtain ⟨hsound,acts,hruns,hevents,htasks⟩ := hs
  cases step_cases maxEvents write display capacity s a s' h with
  | main o w act server hw ha =>
    obtain ⟨os,hos,ho⟩ := task_simulated maxEvents write s.main o w act hsound hw
    have halone := run_alone _ capacity _ _ os _ s.server server hos ha
    refine ⟨task_sound maxEvents write s.main o w act hsound hw,acts++os.map Act.main,
      run_trans _ _ _ _ _ _ hruns halone,?_,?_⟩
    · rw [occurrences_append, occurrences_append, occurrences_main, returned_append, hevents, ho,
        List.flatMap_append]
      simp [occurrences]
    · rw [tasks_append, tasks_append, tasks_main, htasks]
      rfl
  | task a server hl ha =>
    have hstep : OverlayClients.step (BroadcastServer.mainTask maxEvents write) capacity
        ⟨broadcaster maxEvents s.main,s.server⟩ (.task a) =
          some ⟨broadcaster maxEvents s.main,server⟩ := by
      simp [OverlayClients.step, ha]
    refine ⟨hsound,acts++[.task a],
      run_trans _ _ _ _ _ _ hruns ((run_cons _ _ _ _ [] hstep).trans rfl),?_,?_⟩
    · rw [occurrences_append, occurrences_append, returned_append, hevents, List.flatMap_append]
      rfl
    · rw [tasks_append, tasks_append, htasks]
      rfl

theorem run_mirrored (acts : List (Act Occurrence)) (s : System Worker)
    (h : Runs maxEvents write display capacity acts s) :
    Mirrored maxEvents write capacity acts s := by
  have hstart : Mirrored maxEvents write capacity [] ⟨.start,.new⟩ := ⟨[],rfl,rfl,rfl⟩
  exact (run_history (step maxEvents write display capacity)
    (fun past s => Sound s.main ∧ Mirrored maxEvents write capacity past s)
    (step_mirrored maxEvents write display capacity) [] acts _ s ⟨start_sound,hstart⟩ h).2

/-! ## What the window is told -/

def isNotice : WorkerEvent → Bool
  | .started _ _ => true
  | .relayed _ => true
  | _ => false

def notices (events : List WorkerEvent) : List WorkerEvent := events.filter isNotice

/-- The notices of a server that has told of its first totals. -/
def totals (n : ℕ) : List WorkerEvent :=
  .started fixedSource fixedWsUrl::(List.range n).map (fun i => .relayed (i+1))

def unreported : Phase → ℕ
  | .reporting _ => 1
  | _ => 0

structure Told (w : Worker) (n : ℕ) : Prop where
  relayed : w.relayed = n+unreported w.phase
  notices : notices w.events = if w.listening = true then totals n else []
  silent : w.listening = false → w.relayed = 0

theorem start_told : Told .start 0 := ⟨rfl,rfl,fun _ => rfl⟩

theorem notices_append (es es' : List WorkerEvent) :
    notices (es++es') = notices es++notices es' := List.filter_append ..

@[simp] theorem notices_log (w : Worker) (message : String) :
    notices (w.log message).events = notices w.events := by
  rw [Worker.log, notices_append]
  exact List.append_nil _

theorem totals_succ (n : ℕ) : totals (n+1) = totals n++[.relayed (n+1)] := by
  simp [totals, List.range_succ]

/-- A step that gives no notice, with none outstanding before or after. -/
theorem quiet_told (w w' : Worker) (n : ℕ) (hw : Told w n) (hu : unreported w.phase = 0)
    (hu' : unreported w'.phase = 0) (hr : w'.relayed = w.relayed)
    (hl : w'.listening = w.listening) (he : notices w'.events = notices w.events) :
    ∃ n', Told w' n' := by
  refine ⟨n,?_,?_,?_⟩
  · rw [hr, hu', hw.relayed, hu]
  · rw [he, hl, hw.notices]
  · rw [hl, hr]
    exact hw.silent

theorem reported_told (w w' : Worker) (n : ℕ) (hw : Told w n) (rest : List SosEnvelope)
    (hl : w.listening = true) (hp : w.phase = .reporting rest) (hu : unreported w'.phase = 0)
    (hr : w'.relayed = w.relayed) (hl' : w'.listening = w.listening)
    (he : notices w'.events = notices w.events++[.relayed w.relayed]) : ∃ n', Told w' n' := by
  have hsent : w.relayed = n+1 := by rw [hw.relayed, hp]; rfl
  refine ⟨n+1,?_,?_,?_⟩
  · rw [hr, hu, hsent]
  · rw [he, hl', hw.notices, if_pos hl, if_pos hl, totals_succ, hsent]
  · rw [hl', hl]
    exact fun h => by cases h

theorem unreported_starting (p : Phase) (hp : starting p = true) : unreported p = 0 := by
  cases p <;> first | rfl | cases hp

theorem unreported_retry (p : Phase) (k : ℕ) (hp : retry p = some k) : unreported p = 0 := by
  cases p <;> first | rfl | cases hp

@[simp] theorem unreported_forwardPhase (es : List SosEnvelope) :
    unreported (forwardPhase es) = 0 := by
  cases es <;> rfl

theorem task_told (w : Worker) (o : Occurrence) (w' : Worker) (a : Option MainAct) (n : ℕ)
    (hs : Sound w) (hw : Told w n) (h : TaskStepped maxEvents write w o w' a) :
    ∃ n', Told w' n' := by
  cases h with
  | requested => exact ⟨n,hw.relayed,hw.notices,hw.silent⟩
  | cancelled _ hp _ =>
    exact quiet_told w _ n hw (unreported_starting _ hp) rfl rfl rfl (notices_log w _)
  | attempted k hp =>
    unfold Worker.announced
    split
    · exact quiet_told w _ n hw (by rw [hp]; rfl) rfl rfl rfl (notices_log w _)
    · exact quiet_told w _ n hw (by rw [hp]; rfl) rfl rfl rfl rfl
  | refused k error hp =>
    exact quiet_told w _ n hw (by rw [hp]; rfl) rfl rfl rfl (notices_log w _)
  | bound hp =>
    have hl : w.listening = false := hs.startup (by rw [hp]; rfl)
    have hzero := hw.silent hl
    refine ⟨0,hzero,?_,fun h => by cases h⟩
    have hnone : notices w.events = [] := by rw [hw.notices, hl]; rfl
    change notices (_++[.started fixedSource fixedWsUrl]) = _
    rw [notices_append, notices_log, hnone]
    rfl
  | event event hp =>
    exact quiet_told w _ n hw (by rw [hp]; rfl) (unreported_forwardPhase _) rfl rfl rfl
  | gap r message hp hr =>
    exact quiet_told w _ n hw (by rw [hp]; rfl) rfl rfl rfl (notices_log w _)
  | signalled hp => exact quiet_told w _ n hw (by rw [hp]; rfl) rfl rfl rfl (notices_log w _)
  | cutShort _ k hp _ =>
    exact quiet_told w _ n hw (unreported_retry _ k hp) rfl rfl rfl (notices_log w _)
  | reattempted k hp => exact quiet_told w _ n hw (by rw [hp]; rfl) rfl rfl rfl (notices_log w _)
  | reconnected k hp => exact quiet_told w _ n hw (by rw [hp]; rfl) rfl rfl rfl (notices_log w _)
  | forwarded e rest hp =>
    have hl := sound_listening w hs (by rw [hp]; rfl) (by simp [hp])
    refine ⟨n,?_,hw.notices,fun h => ?_⟩
    · have hbefore : w.relayed = n := by rw [hw.relayed, hp]; rfl
      change w.relayed+1 = n+1
      rw [hbefore]
    · exact absurd h (by simp [hl])
  | reported rest hp hmax =>
    have hl := sound_listening w hs (by rw [hp]; rfl) (by simp [hp])
    exact reported_told w _ n hw rest hl hp (unreported_forwardPhase _) rfl rfl
      (notices_append _ _)
  | last rest hp hmax =>
    have hl := sound_listening w hs (by rw [hp]; rfl) (by simp [hp])
    exact reported_told w _ n hw rest hl hp rfl rfl rfl
      ((notices_log w.report _).trans (notices_append _ _))
  | _ =>
    have hphase := ‹w.phase = _›
    exact quiet_told w _ n hw (by rw [hphase]; rfl) rfl rfl rfl rfl

theorem run_told (acts : List (Act Occurrence)) (s : System Worker)
    (h : Runs maxEvents write display capacity acts s) : ∃ n, Told s.main n := by
  refine (run_invariant (step maxEvents write display capacity)
    (fun s => Sound s.main ∧ ∃ n, Told s.main n) ?_ acts _ s ⟨start_sound,0,start_told⟩ h).2
  rintro s a s' ⟨hs,n,hn⟩ h
  cases step_cases maxEvents write display capacity s a s' h with
  | main o w act server hw ha =>
    exact ⟨task_sound maxEvents write s.main o w act hs hw,
      task_told maxEvents write s.main o w act n hs hn hw⟩
  | task a server hl ha => exact ⟨hs,n,hn⟩

/-- The totals are those of the payloads offered. -/
theorem run_offered (acts : List (Act Occurrence)) (s : System Worker)
    (h : Runs maxEvents write display capacity acts s) :
    s.main.relayed = s.server.outgoing.offered.length := by
  obtain ⟨acts',hruns,_,_⟩ := run_mirrored maxEvents write display capacity acts s h
  obtain ⟨emitted,hp,ha⟩ := BroadcastServer.run_accounted maxEvents write capacity acts' _ hruns
  have hrelayed : s.main.relayed = (payloads emitted).length := ha.relayed
  have hoffered : s.server.outgoing.offered = payloads emitted := hp.offered
  rw [hrelayed, hoffered]

/-- However the tasks take turns and whenever the worker is asked to stop, its
server is one that the broadcaster of the command line can have, with the same
events and the same steps of the other tasks; so each client is written what
the events translate to, from its acceptance on and in order. -/
theorem worker_refines (acts : List (Act Occurrence)) (s : System Worker)
    (h : Runs maxEvents write display capacity acts s) :
    (∃ acts', BroadcastServer.Runs maxEvents write capacity acts'
        ⟨broadcaster maxEvents s.main,s.server⟩ ∧
      returned (occurrences acts') = (occurrences acts).flatMap received ∧
      tasks acts' = tasks acts) ∧
    s.server.outgoing.offered <+:
      (((occurrences acts).flatMap received).flatMap translation).map write ∧
    ∀ c ∈ s.server.clients,
      c.written.Sublist (s.server.outgoing.offered.drop c.receiver.first) := by
  obtain ⟨acts',hruns,hevents,htasks⟩ := run_mirrored maxEvents write display capacity acts s h
  obtain ⟨emitted,hp,ha⟩ := BroadcastServer.run_accounted maxEvents write capacity acts' _ hruns
  have hoffered : s.server.outgoing.offered = payloads emitted := hp.offered
  refine ⟨⟨acts',hruns,hevents,htasks⟩,?_,?_⟩
  · rw [hoffered, ← hevents]
    exact ha.atMost
  · intro c hc
    exact kept_sublist capacity _ c
      ((run_kept (BroadcastServer.mainTask maxEvents write) capacity .start acts' _ hruns).clients
        c hc)

end Task

/-- A stop between two attempts to reconnect, with a client served before. -/
def interrupted : List (Act Occurrence) :=
  [.main .checked,.main .connected,.main .bound,.task .accept,.task (.client 0 .upgraded),
   .main (.nextEvent (.ok (some (.countdownBegin ⟨none,[]⟩)))),.main .forwarded,.main .reported,
   .main .forwarded,.main .reported,.task (.client 0 .recv),.main (.nextEvent (.ok none)),
   .main .checked,.task (.client 0 .sent),.main (.reconnectFailed "refused"),.main .requested,
   .main .shutdownSeen,.main .shutdownSent]

theorem interrupted_refines : ∃ s,
    Runs none SosEnvelope.event (fun _ => "") 1024 interrupted s ∧
    s.server.clients.map OverlayClients.Client.written = [["game:pre_countdown_begin"]] ∧
    ∃ acts', BroadcastServer.Runs none SosEnvelope.event 1024 acts'
      ⟨broadcaster none s.main,s.server⟩ :=
  ⟨_,rfl,rfl,(worker_refines none SosEnvelope.event (fun _ => "") 1024 interrupted _ rfl).1.imp
    (fun _ h => h.1)⟩

/-! ## What the window shows -/

/-- What the window does while it has a worker: its button is pressed, or it
handles an event. -/
inductive Move where
  | stop
  | handle (e : WorkerEvent)

def moved (app : App) : Move → App
  | .stop => app.stop
  | .handle e => app.apply e

def handled : List Move → List WorkerEvent
  | [] => []
  | .stop::moves => handled moves
  | .handle e::moves => e::handled moves

theorem apply_relayed (a b : App) (h : a.relayedCount = b.relayedCount) (e : WorkerEvent) :
    (a.apply e).relayedCount = (if isNotice e = true then b.apply e else b).relayedCount := by
  cases e with
  | relayed total => rfl
  | _ => exact h

/-- The total comes from the notices among the events that are handled. -/
theorem shown_relayed (moves : List Move) (a b : App) (h : a.relayedCount = b.relayedCount) :
    (moves.foldl moved a).relayedCount =
      ((notices (handled moves)).foldl App.apply b).relayedCount := by
  induction moves generalizing a b with
  | nil => exact h
  | cons move moves ih =>
    cases move with
    | stop =>
      refine ih _ _ ?_
      rw [← h, moved, App.stop]
      split <;> rfl
    | handle e =>
      have hnext := ih _ _ (apply_relayed a b h e)
      rw [handled, notices, List.filter_cons]
      by_cases he : isNotice e = true
      · rw [if_pos he] at hnext
        rw [if_pos he]
        exact hnext
      · rw [if_neg he] at hnext
        rw [if_neg he]
        exact hnext

theorem moved_idle (app : App) (h : app.status ≠ "Running") (move : Move)
    (hm : notices (handled [move]) = []) : (moved app move).status ≠ "Running" := by
  cases move with
  | stop =>
    simp only [moved, App.stop]
    split
    · exact (by decide : "Stopping" ≠ "Running")
    · exact h
  | handle e =>
    cases e with
    | started source wsUrl => cases hm
    | _ => exact h

/-- It takes a notice for the window to show that the server runs. -/
theorem shown_idle (moves : List Move) (app : App) (h : app.status ≠ "Running")
    (hm : notices (handled moves) = []) : (moves.foldl moved app).status ≠ "Running" := by
  induction moves generalizing app with
  | nil => exact h
  | cons move moves ih =>
    have hsplit : notices (handled [move])++notices (handled moves) = [] := by
      rw [notices, notices, ← List.filter_append, ← hm]
      cases move <;> rfl
    obtain ⟨hhead,hrest⟩ := List.append_eq_nil_iff.mp hsplit
    exact ih _ (moved_idle app h move hhead) hrest

theorem totals_shown (app : App) (h : app.relayedCount = 0) (n : ℕ) :
    ((totals n).foldl App.apply app).relayedCount = n := by
  cases n with
  | zero => exact h
  | succ n =>
    rw [totals_succ, List.foldl_append]
    rfl

/-- What comes first of the notices is nothing, or the notices of fewer
totals. -/
theorem totals_prefix (es : List WorkerEvent) (n : ℕ) (h : es <+: totals n) :
    es = [] ∨ ∃ k ≤ n, es = totals k := by
  cases es with
  | nil => exact .inl rfl
  | cons e es =>
    obtain ⟨rfl,hrest⟩ := List.cons_prefix_cons.mp h
    have htake := List.prefix_iff_eq_take.mp hrest
    rw [← List.map_take, List.take_range] at htake
    refine .inr ⟨min es.length n,Nat.min_le_right _ _,?_⟩
    exact congrArg (WorkerEvent.started fixedSource fixedWsUrl::·) htake

def line : Move → List String
  | .stop => ["Stopping broadcaster..."]
  | .handle (.log message) => [message]
  | .handle (.started _ wsUrl) => ["Broadcast server ready at "++wsUrl]
  | .handle _ => []

/-- Lines that are cut away need not be there. -/
theorem rtake_concat (l : List String) (x : String) (n : ℕ) :
    (l.rtake n++[x]).rtake n = (l++[x]).rtake n := by
  cases n with
  | zero => simp
  | succ n =>
    rw [List.rtake_concat_succ, List.rtake_concat_succ]
    simp [List.rtake_eq_reverse_take_reverse, List.take_take]

theorem pushLog_logs (app : App) (lines : List String) (h : app.logs = lines.rtake maxLogLines)
    (message : String) :
    (app.pushLog message).logs = (lines++[message]).rtake maxLogLines := by
  change ((app.logs++[message]).reverse.take maxLogLines).reverse = _
  rw [← List.rtake_eq_reverse_take_reverse, h, rtake_concat]

theorem moved_shutdownTx (app : App) (move : Move) :
    (moved app move).shutdownTx.isSome = app.shutdownTx.isSome := by
  cases move with
  | stop => exact BroadcastGui.stop_shutdownTx app
  | handle e => rw [moved, BroadcastGui.apply_shutdownTx]

theorem moved_logs (app : App) (lines : List String) (h : app.logs = lines.rtake maxLogLines)
    (hs : app.shutdownTx.isSome = true) (move : Move) :
    (moved app move).logs = (lines++line move).rtake maxLogLines := by
  cases move with
  | stop =>
    obtain ⟨sent,hsent⟩ := Option.isSome_iff_exists.mp hs
    rw [moved, App.stop, hsent]
    exact pushLog_logs _ lines h _
  | handle e =>
    cases e with
    | started source wsUrl => exact pushLog_logs _ lines h _
    | log message => exact pushLog_logs app lines h message
    | _ => simpa [moved, App.apply, line] using h

/-- The log is the last of the lines there were. -/
theorem shown_logs (moves : List Move) (app : App) (lines : List String)
    (h : app.logs = lines.rtake maxLogLines) (hs : app.shutdownTx.isSome = true) :
    (moves.foldl moved app).logs = (lines++moves.flatMap line).rtake maxLogLines := by
  induction moves generalizing app lines with
  | nil => simpa using h
  | cons move moves ih =>
    rw [List.foldl_cons, List.flatMap_cons, ← List.append_assoc]
    exact ih _ _ (moved_logs app lines h hs move) ((moved_shutdownTx app move).trans hs)

/-- A window that has just started a worker. -/
theorem start_shown (app : App) (h : app.running = false) (i : ℕ) :
    (app.start i).relayedCount = 0 ∧ (app.start i).status = "Starting" ∧
    (app.start i).logs = (app.start i).logs.rtake maxLogLines ∧
    (app.start i).shutdownTx.isSome = true := by
  rw [App.start, if_neg (by simp [h])]
  refine ⟨rfl,rfl,?_,rfl⟩
  simp [App.pushLog, maxLogLines, List.rtake]

/-- The notices seen so far are none, or those of a total that was reached. -/
theorem seen_totals (s : Worker) (n : ℕ) (hn : Told s n) (es : List WorkerEvent)
    (h : es <+: notices s.events) : es = [] ∨ ∃ k ≤ n, s.listening = true ∧ es = totals k := by
  rw [hn.notices] at h
  by_cases hl : s.listening = true
  · rw [if_pos hl] at h
    rcases totals_prefix es n h with hnone | ⟨k,hk,htotals⟩
    · exact .inl hnone
    · exact .inr ⟨k,hk,hl,htotals⟩
  · rw [if_neg hl] at h
    exact .inl (List.prefix_nil.mp h)

end RlStatsApi.GuiWorker
