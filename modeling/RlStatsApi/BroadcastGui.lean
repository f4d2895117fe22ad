import RlStatsApi.LabelledRuns

/-!
# The broadcaster's window and its workers

The window starts, stops and drains a worker thread, and joins it when it
reads that the worker has stopped. Each worker accepts overlay clients; a
handler counts its client up and reports the count in two steps, and counts
it down and reports in two more. Whatever the window reads comes through the
channel of the worker it started last. A step is one of the window's own, or
one of a worker.
-/

set_option autoImplicit false

namespace RlStatsApi.BroadcastGui

/-! ## The window -/

inductive WorkerEvent where
  | started (source wsUrl : String)
  | clients (count : ℕ)
  | relayed (total : ℕ)
  | log (message : String)
  | stopped (result : Except String Unit)

/-- Workers are numbered as they are started. The receiver is the worker's
number and what its channel holds. -/
structure App where
  running : Bool
  status : String
  sourceAddr : String
  wsUrl : String
  clientCount : ℕ
  relayedCount : ℕ
  logs : List String
  workerRx : Option (ℕ × List WorkerEvent)
  shutdownTx : Option Bool
  workerHandle : Option ℕ

def fixedSource : String := "127.0.0.1:49123"
def fixedWsUrl : String := "ws://0.0.0.0:49122"

def App.new : App := ⟨false,"Idle",fixedSource,fixedWsUrl,0,0,[],none,none,none⟩

def maxLogLines : ℕ := 300

section App

variable (app : App)

/-- The oldest lines go when there are too many. -/
def App.pushLog (message : String) : App :=
  {app with logs := ((app.logs++[message]).reverse.take maxLogLines).reverse}

def App.start (worker : ℕ) : App :=
  if app.running = true then app
  else
    {App.pushLog {app with
      status := "Starting"
      sourceAddr := fixedSource
      wsUrl := fixedWsUrl
      clientCount := 0
      relayedCount := 0
      logs := []}
      ("Starting SOS broadcaster (source="++fixedSource++" ws="++fixedWsUrl++")") with
      workerRx := some (worker,[])
      shutdownTx := some false
      workerHandle := some worker
      running := true}

def App.stop : App :=
  match app.shutdownTx with
  | some _ =>
    App.pushLog {app with status := "Stopping", shutdownTx := some true} "Stopping broadcaster..."
  | none => app

/-- What the window does on an event other than `stopped`. -/
def App.apply : WorkerEvent → App
  | .started source wsUrl =>
    App.pushLog {app with status := "Running", sourceAddr := source, wsUrl := wsUrl}
      ("Broadcast server ready at "++wsUrl)
  | .clients count => {app with clientCount := count}
  | .relayed total => {app with relayedCount := total}
  | .log message => app.pushLog message
  | .stopped _ => app

/-- The window lets go of a stopped worker before it joins it. -/
def App.detach : App :=
  {app with running := false, shutdownTx := none, workerRx := none, workerHandle := none}

def App.conclude : Except String Unit → App
  | .ok () => App.pushLog {app with status := "Stopped"} "Broadcaster stopped"
  | .error error =>
    App.pushLog {app with status := "Error"} ("Broadcaster stopped with error: "++error)

/-- A send to a channel whose receiver is gone is lost. -/
def App.deliver (worker : ℕ) (events : List WorkerEvent) : App :=
  match app.workerRx with
  | some (w,queue) =>
    if w = worker then {app with workerRx := some (w,queue++events)} else app
  | none => app

end App

/-! Only the log is touched by a message, and only its own field by an event. -/

section Fields

variable (app : App)

theorem start_stopped (h : app.running = false) (worker : ℕ) :
    (app.start worker).running = true ∧ (app.start worker).clientCount = 0 ∧
    (app.start worker).workerRx = some (worker,[]) ∧
    (app.start worker).shutdownTx = some false ∧
    (app.start worker).workerHandle = some worker := by
  rw [App.start, if_neg (by simp [h])]
  exact ⟨rfl,rfl,rfl,rfl,rfl⟩

theorem start_running (h : app.running = true) (worker : ℕ) : app.start worker = app := by
  simp [App.start, h]

@[simp] theorem stop_running : app.stop.running = app.running := by
  unfold App.stop
  split <;> rfl

@[simp] theorem stop_clientCount : app.stop.clientCount = app.clientCount := by
  unfold App.stop
  split <;> rfl

@[simp] theorem stop_workerRx : app.stop.workerRx = app.workerRx := by
  unfold App.stop
  split <;> rfl

@[simp] theorem stop_shutdownTx : app.stop.shutdownTx.isSome = app.shutdownTx.isSome := by
  unfold App.stop
  split
  · next h => rw [h]; rfl
  · rfl

@[simp] theorem stop_workerHandle : app.stop.workerHandle = app.workerHandle := by
  unfold App.stop
  split <;> rfl

@[simp] theorem apply_running (e : WorkerEvent) : (app.apply e).running = app.running := by
  cases e <;> rfl

@[simp] theorem apply_workerRx (e : WorkerEvent) : (app.apply e).workerRx = app.workerRx := by
  cases e <;> rfl

@[simp] theorem apply_shutdownTx (e : WorkerEvent) :
    (app.apply e).shutdownTx = app.shutdownTx := by
  cases e <;> rfl

@[simp] theorem apply_workerHandle (e : WorkerEvent) :
    (app.apply e).workerHandle = app.workerHandle := by
  cases e <;> rfl

@[simp] theorem conclude_running (r : Except String Unit) :
    (app.conclude r).running = app.running := by
  cases r <;> rfl

@[simp] theorem conclude_clientCount (r : Except String Unit) :
    (app.conclude r).clientCount = app.clientCount := by
  cases r <;> rfl

@[simp] theorem conclude_workerRx (r : Except String Unit) :
    (app.conclude r).workerRx = app.workerRx := by
  cases r <;> rfl

@[simp] theorem conclude_shutdownTx (r : Except String Unit) :
    (app.conclude r).shutdownTx = app.shutdownTx := by
  cases r <;> rfl

@[simp] theorem conclude_workerHandle (r : Except String Unit) :
    (app.conclude r).workerHandle = app.workerHandle := by
  cases r <;> rfl

@[simp] theorem deliver_running (i : ℕ) (es : List WorkerEvent) :
    (app.deliver i es).running = app.running := by
  unfold App.deliver
  split
  · split <;> rfl
  · rfl

@[simp] theorem deliver_clientCount (i : ℕ) (es : List WorkerEvent) :
    (app.deliver i es).clientCount = app.clientCount := by
  unfold App.deliver
  split
  · split <;> rfl
  · rfl

@[simp] theorem deliver_shutdownTx (i : ℕ) (es : List WorkerEvent) :
    (app.deliver i es).shutdownTx = app.shutdownTx := by
  unfold App.deliver
  split
  · split <;> rfl
  · rfl

@[simp] theorem deliver_workerHandle (i : ℕ) (es : List WorkerEvent) :
    (app.deliver i es).workerHandle = app.workerHandle := by
  unfold App.deliver
  split
  · split <;> rfl
  · rfl

theorem deliver_workerRx (i : ℕ) (es : List WorkerEvent) :
    (app.deliver i es).workerRx =
      app.workerRx.map (fun r => if r.1 = i then (r.1,r.2++es) else r) := by
  unfold App.deliver
  split
  · next h =>
    rw [h]
    split
    · next hw => simp [hw]
    · next hw => simp [hw, h]
  · next h => simp [h]

end Fields

/-! ## Workers -/

/-- A handler of a client: before its handshake, between counting and
reporting on the way in, serving, between the two on the way out, and over. -/
inductive Handler where
  | handshake
  | joining (count : ℕ)
  | connected
  | leaving (count : ℕ)
  | over
  deriving DecidableEq

def Handler.inFlight : Handler → Bool
  | .joining _ => true
  | .leaving _ => true
  | _ => false

inductive WorkerPhase where
  | serving
  | stopping
  | exited
  deriving DecidableEq

structure Worker where
  phase : WorkerPhase
  clientCount : ℕ
  handlers : List Handler

def Worker.new : Worker := ⟨.serving,0,[]⟩

inductive WorkerAct where
  | ready (source wsUrl : String)
  | relay (total : ℕ)
  | log (message : String)
  | accept
  | refuse (h : ℕ)
  | connect (h : ℕ)
  | disconnect (h : ℕ)
  | report (h : ℕ)
  | finish (result : Except String Unit)
  | exit

/-- A step and what it sends. The handlers go on until the runtime is
dropped; that ends them, but not between a count and its report, where they
do not wait. -/
def Worker.step (w : Worker) : WorkerAct → Option (Worker × List WorkerEvent)
  | .ready source wsUrl => if w.phase = .serving then some (w,[.started source wsUrl]) else none
  | .relay total => if w.phase = .serving then some (w,[.relayed total]) else none
  | .log message => if w.phase = .exited then none else some (w,[.log message])
  | .accept =>
    if w.phase = .exited then none
    else some ({w with handlers := w.handlers++[.handshake]},[])
  | .refuse h =>
    if w.phase = .exited then none
    else match w.handlers[h]? with
      | some .handshake => some ({w with handlers := w.handlers.set h .over},[])
      | _ => none
  | .connect h =>
    if w.phase = .exited then none
    else match w.handlers[h]? with
      | some .handshake =>
        some ({w with
          clientCount := w.clientCount+1
          handlers := w.handlers.set h (.joining (w.clientCount+1))},[])
      | _ => none
  | .disconnect h =>
    if w.phase = .exited then none
    else match w.handlers[h]? with
      | some .connected =>
        some ({w with
          clientCount := w.clientCount-1
          handlers := w.handlers.set h (.leaving (w.clientCount-1))},[])
      | _ => none
  | .report h =>
    if w.phase = .exited then none
    else match w.handlers[h]? with
      | some (.joining count) =>
        some ({w with handlers := w.handlers.set h .connected},[.clients count])
      | some (.leaving count) =>
        some ({w with handlers := w.handlers.set h .over},[.clients count])
      | _ => none
  | .finish result =>
    if w.phase = .serving then some ({w with phase := .stopping},[.stopped result]) else none
  | .exit =>
    if w.phase = .stopping ∧ w.handlers.any Handler.inFlight = false then
      some ({w with phase := .exited, handlers := []},[])
    else none

inductive WorkerStepped (w : Worker) : WorkerAct → Worker → List WorkerEvent → Prop
  | ready (source wsUrl : String) (hp : w.phase = .serving) :
      WorkerStepped w (.ready source wsUrl) w [.started source wsUrl]
  | relay (total : ℕ) (hp : w.phase = .serving) :
      WorkerStepped w (.relay total) w [.relayed total]
  | log (message : String) (hp : w.phase ≠ .exited) :
      WorkerStepped w (.log message) w [.log message]
  | accept (hp : w.phase ≠ .exited) :
      WorkerStepped w .accept {w with handlers := w.handlers++[.handshake]} []
  | refuse (h : ℕ) (hp : w.phase ≠ .exited) (hh : w.handlers[h]? = some .handshake) :
      WorkerStepped w (.refuse h) {w with handlers := w.handlers.set h .over} []
  | connect (h : ℕ) (hp : w.phase ≠ .exited) (hh : w.handlers[h]? = some .handshake) :
      WorkerStepped w (.connect h)
        {w with clientCount := w.clientCount+1
                handlers := w.handlers.set h (.joining (w.clientCount+1))} []
  | disconnect (h : ℕ) (hp : w.phase ≠ .exited) (hh : w.handlers[h]? = some .connected) :
      WorkerStepped w (.disconnect h)
        {w with clientCount := w.clientCount-1
                handlers := w.handlers.set h (.leaving (w.clientCount-1))} []
  | reportIn (h n : ℕ) (hp : w.phase ≠ .exited) (hh : w.handlers[h]? = some (.joining n)) :
      WorkerStepped w (.report h) {w with handlers := w.handlers.set h .connected} [.clients n]
  | reportOut (h n : ℕ) (hp : w.phase ≠ .exited) (hh : w.handlers[h]? = some (.leaving n)) :
      WorkerStepped w (.report h) {w with handlers := w.handlers.set h .over} [.clients n]
  | finish (result : Except String Unit) (hp : w.phase = .serving) :
      WorkerStepped w (.finish result) {w with phase := .stopping} [.stopped result]
  | exit (hp : w.phase = .stopping) (hf : w.handlers.any Handler.inFlight = false) :
      WorkerStepped w .exit {w with phase := .exited, handlers := []} []

theorem worker_step_cases (w : Worker) (a : WorkerAct) (r : Worker × List WorkerEvent)
    (h : w.step a = some r) : WorkerStepped w a r.1 r.2 := by
  cases a with
  | ready source wsUrl =>
    simp only [Worker.step] at h
    split_ifs at h with hp
    cases h
    exact .ready source wsUrl hp
  | relay total =>
    simp only [Worker.step] at h
    split_ifs at h with hp
    cases h
    exact .relay total hp
  | log message =>
    simp only [Worker.step] at h
    split_ifs at h with hp
    cases h
    exact .log message hp
  | accept =>
    simp only [Worker.step] at h
    split_ifs at h with hp
    cases h
    exact .accept hp
  | refuse i =>
    simp only [Worker.step] at h
    split_ifs at h with hp
    split at h
    · next hh =>
      cases h
      exact .refuse i hp hh
    · cases h
  | connect i =>
    simp only [Worker.step] at h
    split_ifs at h with hp
    split at h
    · next hh =>
      cases h
      exact .connect i hp hh
    · cases h
  | disconnect i =>
    simp only [Worker.step] at h
    split_ifs at h with hp
    split at h
    · next hh =>
      cases h
      exact .disconnect i hp hh
    · cases h
  | report i =>
    simp only [Worker.step] at h
    split_ifs at h with hp
    split at h
    · next n hh =>
      cases h
      exact .reportIn i n hp hh
    · next n hh =>
      cases h
      exact .reportOut i n hp hh
    · cases h
  | finish result =>
    simp only [Worker.step] at h
    split_ifs at h with hp
    cases h
    exact .finish result hp
  | exit =>
    simp only [Worker.step] at h
    split_ifs at h with hp
    cases h
    exact .exit hp.1 hp.2

/-! ## The two together -/

/-- What the window's thread is doing: nothing, taking what the channel
holds, going through what it took, joining a worker in between, or joining it
as the window is dropped. -/
inductive Ui where
  | idle
  | collecting (pending : List WorkerEvent)
  | processing (pending : List WorkerEvent)
  | joining (worker : ℕ) (result : Except String Unit) (pending : List WorkerEvent)
  | dropping (worker : ℕ)
  | dropped

structure Gui where
  app : App
  ui : Ui
  workers : List Worker

def Gui.new : Gui := ⟨.new,.idle,[]⟩

inductive Act where
  | start
  | stop
  | drain
  | receive
  | handle
  | joined
  | drop
  | worker (i : ℕ) (a : WorkerAct)

def Gui.hasExited (g : Gui) (i : ℕ) : Bool := g.workers[i]?.any (fun w => w.phase = .exited)

/-- One turn of the loop over what was taken. -/
def Gui.handleNext (g : Gui) : List WorkerEvent → Gui
  | [] => {g with ui := .idle}
  | .stopped result::pending =>
    match g.app.workerHandle with
    | some i => {g with app := g.app.detach, ui := .joining i result pending}
    | none => {g with app := g.app.detach.conclude result, ui := .processing pending}
  | e::pending => {g with app := g.app.apply e, ui := .processing pending}

def Gui.receiveNext (g : Gui) (pending : List WorkerEvent) : Gui :=
  match g.app.workerRx with
  | some (i,e::queue) =>
    {g with app := {g.app with workerRx := some (i,queue)}, ui := .collecting (pending++[e])}
  | _ => {g with ui := .processing pending}

def Gui.startWorker (g : Gui) : Gui where
  app := g.app.start g.workers.length
  ui := .idle
  workers := if g.app.running = true then g.workers else g.workers++[.new]

def Gui.dropApp (g : Gui) : Gui :=
  let app := if g.app.running = true then g.app.stop else g.app
  match app.workerHandle with
  | some i => {g with app := {app with workerHandle := none}, ui := .dropping i}
  | none => {g with app := app, ui := .dropped}

def step (g : Gui) : Act → Option Gui
  | .start => match g.ui with
    | .idle => some g.startWorker
    | _ => none
  | .stop => match g.ui with
    | .idle => some {g with app := g.app.stop}
    | _ => none
  | .drain => match g.ui with
    | .idle => some {g with ui := .collecting []}
    | _ => none
  | .receive => match g.ui with
    | .collecting pending => some (g.receiveNext pending)
    | _ => none
  | .handle => match g.ui with
    | .processing pending => some (g.handleNext pending)
    | _ => none
  | .joined => match g.ui with
    | .joining i result pending =>
      if g.hasExited i = true then
        some {g with app := g.app.conclude result, ui := .processing pending}
      else none
    | .dropping i => if g.hasExited i = true then some {g with ui := .dropped} else none
    | _ => none
  | .drop => match g.ui with
    | .idle => some g.dropApp
    | _ => none
  | .worker i a => g.workers[i]?.bind (fun w => (w.step a).map (fun r =>
      {g with app := g.app.deliver i r.2, workers := g.workers.set i r.1}))

/-- The steps there are, one constructor for each way the match goes. -/
inductive Stepped (g : Gui) : Act → Gui → Prop
  | start (hui : g.ui = .idle) : Stepped g .start g.startWorker
  | stop (hui : g.ui = .idle) : Stepped g .stop {g with app := g.app.stop}
  | drain (hui : g.ui = .idle) : Stepped g .drain {g with ui := .collecting []}
  | receive (pending : List WorkerEvent) (hui : g.ui = .collecting pending) :
      Stepped g .receive (g.receiveNext pending)
  | handle (pending : List WorkerEvent) (hui : g.ui = .processing pending) :
      Stepped g .handle (g.handleNext pending)
  | joined (i : ℕ) (result : Except String Unit) (pending : List WorkerEvent)
      (hui : g.ui = .joining i result pending) (hx : g.hasExited i = true) :
      Stepped g .joined {g with app := g.app.conclude result, ui := .processing pending}
  | dropped (i : ℕ) (hui : g.ui = .dropping i) (hx : g.hasExited i = true) :
      Stepped g .joined {g with ui := .dropped}
  | drop (hui : g.ui = .idle) : Stepped g .drop g.dropApp
  | worker (i : ℕ) (a : WorkerAct) (w : Worker) (r : Worker × List WorkerEvent)
      (hw : g.workers[i]? = some w) (hr : w.step a = some r) :
      Stepped g (.worker i a)
        {g with app := g.app.deliver i r.2, workers := g.workers.set i r.1}

theorem step_cases (g : Gui) (a : Act) (g' : Gui) (h : step g a = some g') : Stepped g a g' := by
  cases a with
  | worker i a =>
    obtain ⟨w,hw,h⟩ := Option.bind_eq_some_iff.mp h
    obtain ⟨r,hr,rfl⟩ := Option.map_eq_some_iff.mp h
    exact .worker i a w r hw hr
  | joined =>
    simp only [step] at h
    split at h
    · next i result pending hui =>
      split_ifs at h with hx
      cases h
      exact .joined i result pending hui hx
    · next i hui =>
      split_ifs at h with hx
      cases h
      exact .dropped i hui hx
    · cases h
  | _ =>
    simp only [step] at h
    split at h
    · next hui =>
      cases h
      constructor
      exact hui
    · cases h

end RlStatsApi.BroadcastGui
