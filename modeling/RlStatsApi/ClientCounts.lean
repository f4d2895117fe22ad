import RlStatsApi.SoleBroadcaster

/-!
# The number of clients on show

Counts reach the window in the order of their reports, which need not be that
of the counting, and the handlers end without a report when their runtime is
dropped. The number on show is right in every quiet state of the runs in
which the last handler to report still reports the counter, and in which the
clients are gone when the window has taken that the worker has stopped and
when the runtime is dropped.
-/

set_option autoImplicit false

namespace RlStatsApi.ClientCounts
open RlStatsApi.BroadcastGui RlStatsApi.SoleBroadcaster RlStatsApi.LabelledRuns

/-! ## Counts in a channel -/

def isStopped : WorkerEvent → Bool
  | .stopped _ => true
  | _ => false

def hasStopped (es : List WorkerEvent) : Bool := es.any isStopped

/-- The number on show after the events. -/
def lastCount (shown : ℕ) : List WorkerEvent → ℕ
  | [] => shown
  | .clients n::es => lastCount n es
  | _::es => lastCount shown es

theorem lastCount_append (shown : ℕ) (es es' : List WorkerEvent) :
    lastCount shown (es++es') = lastCount (lastCount shown es) es' := by
  induction es generalizing shown with
  | nil => rfl
  | cons e es ih =>
    cases e with
    | clients n => exact ih n
    | _ => exact ih shown

@[simp] theorem hasStopped_append (es es' : List WorkerEvent) :
    hasStopped (es++es') = (hasStopped es || hasStopped es') := List.any_append

/-! ## Counts of a worker -/

/-- Counted up and not down again. -/
def counted : Handler → Bool
  | .joining _ => true
  | .connected => true
  | _ => false

def toReport : Handler → Option ℕ
  | .joining n => some n
  | .leaving n => some n
  | _ => none

structure Counted (w : Worker) : Prop where
  running : w.phase ≠ .exited → w.clientCount = w.handlers.countP counted
  exited : w.phase = .exited → w.handlers = []

def Settled (w : Worker) : Prop := w.handlers.any Handler.inFlight = false

/-- A handler reports the counter, or leaves that to another one in flight. -/
def reportsCounter (w : Worker) (h : ℕ) : Bool :=
  w.handlers[h]?.bind toReport = some w.clientCount ||
    (w.handlers.set h .over).any Handler.inFlight

/-- Neither connected nor in flight. -/
def resting : Handler → Bool
  | .handshake => true
  | .over => true
  | _ => false

theorem resting_not_counted (l : List Handler) (h : l.all resting = true) :
    l.countP counted = 0 ∧ l.any Handler.inFlight = false := by
  rw [List.all_eq_true] at h
  constructor
  · rw [List.countP_eq_zero]
    intro x hx
    have hr := h x hx
    cases x <;> first | exact Bool.noConfusion | cases hr
  · rw [List.any_eq_false]
    intro x hx
    have hr := h x hx
    cases x <;> first | exact Bool.noConfusion | cases hr

theorem inFlight_over (l : List Handler) (h : ℕ) (hl : l.any Handler.inFlight = false) :
    (l.set h .over).any Handler.inFlight = false := by
  rw [List.any_eq_false] at hl ⊢
  intro z hz
  rcases List.mem_or_eq_of_mem_set hz with hz | rfl
  · exact hl z hz
  · simp [Handler.inFlight]

section Handlers

variable (l : List Handler) (h : ℕ) (x y : Handler) (hx : l[h]? = some x)
include hx

theorem countP_replaced :
    (l.set h y).countP counted+(counted x).toNat = l.countP counted+(counted y).toNat := by
  obtain ⟨hlt,rfl⟩ := List.getElem?_eq_some_iff.mp hx
  have hle := List.boole_getElem_le_countP (p := counted) hlt
  have hb : ∀ b : Bool, (if b = true then 1 else 0) = b.toNat := by decide
  rw [List.countP_set hlt]
  simp only [hb] at hle ⊢
  omega

theorem inFlight_new (hy : y.inFlight = true) : (l.set h y).any Handler.inFlight = true := by
  obtain ⟨hlt,_⟩ := List.getElem?_eq_some_iff.mp hx
  exact List.any_eq_true.mpr ⟨y,List.mem_set hlt y,hy⟩

/-- Where a handler that was not in flight is replaced, nothing is in flight
that was not before. -/
theorem inFlight_replaced (hf : x.inFlight = false)
    (hl : (l.set h y).any Handler.inFlight = false) : l.any Handler.inFlight = false := by
  rw [List.any_eq_false] at hl ⊢
  intro z hz
  obtain ⟨j,hj⟩ := List.mem_iff_getElem?.mp hz
  by_cases hjh : j = h
  · subst hjh
    rw [hx] at hj
    cases hj
    simp [hf]
  · apply hl z
    apply List.mem_iff_getElem?.mpr
    exact ⟨j,by rw [List.getElem?_set_ne (Ne.symm hjh), hj]⟩

end Handlers

theorem new_counted : Counted .new := ⟨fun _ => rfl,fun _ => rfl⟩

theorem Counted.replaced (w : Worker) (hw : Counted w) (hp : w.phase ≠ .exited) (h n : ℕ)
    (x y : Handler) (hx : w.handlers[h]? = some x)
    (hn : n+(counted x).toNat = w.clientCount+(counted y).toNat) :
    Counted {w with clientCount := n, handlers := w.handlers.set h y} := by
  refine ⟨fun _ => ?_,fun he => absurd he hp⟩
  have hc := hw.running hp
  have hr := countP_replaced w.handlers h x y hx
  show n = (w.handlers.set h y).countP counted
  omega

theorem step_counted (w : Worker) (a : WorkerAct) (r : Worker × List WorkerEvent) (hw : Counted w)
    (h : w.step a = some r) : Counted r.1 := by
  obtain ⟨w',es⟩ := r
  have hstep := worker_step_cases w a (w',es) h
  simp only at hstep ⊢
  cases hstep with
  | ready => exact hw
  | relay => exact hw
  | log => exact hw
  | accept hp =>
    refine ⟨fun _ => ?_,fun he => absurd he hp⟩
    have hc := hw.running hp
    simpa [counted] using hc
  | refuse i hp hh => exact Counted.replaced w hw hp i _ _ .over hh rfl
  | connect i hp hh => exact Counted.replaced w hw hp i _ _ (.joining (w.clientCount+1)) hh rfl
  | disconnect i hp hh =>
    apply Counted.replaced w hw hp i _ _ (.leaving (w.clientCount-1)) hh
    have hpos := countP_replaced w.handlers i _ .over hh
    have hc := hw.running hp
    simp only [counted, Bool.toNat_true, Bool.toNat_false] at hpos ⊢
    omega
  | reportIn i n hp hh => exact Counted.replaced w hw hp i _ _ .connected hh rfl
  | reportOut i n hp hh => exact Counted.replaced w hw hp i _ _ .over hh rfl
  | finish result hp =>
    refine ⟨fun _ => ?_,fun he => by cases he⟩
    exact hw.running (by rw [hp]; exact WorkerPhase.noConfusion)
  | exit => exact ⟨fun he => absurd rfl he,fun _ => rfl⟩

/-- A worker has stopped serving when it has said so. -/
theorem step_stopped (w : Worker) (a : WorkerAct) (r : Worker × List WorkerEvent)
    (h : w.step a = some r) (es : List WorkerEvent)
    (hes : hasStopped es = decide (w.phase ≠ .serving)) :
    hasStopped (es++r.2) = decide (r.1.phase ≠ .serving) := by
  obtain ⟨w',es'⟩ := r
  have hstep := worker_step_cases w a (w',es') h
  rw [hasStopped_append, hes]
  simp only at hstep ⊢
  cases hstep with
  | finish result hp => simp [hasStopped, isStopped]
  | exit hp hf => simp [hasStopped, hp]
  | _ => simp [hasStopped, isStopped]

/-- The last count sent is the counter when no handler is in flight. -/
def Shows (shown : ℕ) (es : List WorkerEvent) (w : Worker) : Prop :=
  Settled w → lastCount shown es = w.clientCount

theorem report_shows (w : Worker) (h n : ℕ) (x y : Handler) (hx : w.handlers[h]? = some x)
    (hn : toReport x = some n) (hc : reportsCounter w h = true)
    (hs : (w.handlers.set h y).any Handler.inFlight = false) (shown : ℕ) (es : List WorkerEvent) :
    lastCount shown (es++[.clients n]) = w.clientCount := by
  rw [lastCount_append]
  show n = w.clientCount
  have hothers := inFlight_over (w.handlers.set h y) h hs
  rw [List.set_set] at hothers
  simpa [reportsCounter, hothers, hx, hn] using hc

theorem step_shows (w : Worker) (a : WorkerAct) (r : Worker × List WorkerEvent)
    (h : w.step a = some r) (hc : ∀ i, a = .report i → reportsCounter w i = true)
    (shown : ℕ) (es : List WorkerEvent) (hw : Shows shown es w) : Shows shown (es++r.2) r.1 := by
  obtain ⟨w',es'⟩ := r
  have hstep := worker_step_cases w a (w',es') h
  intro hs
  simp only at hstep hs ⊢
  cases hstep with
  | ready => rw [lastCount_append]; exact hw hs
  | relay => rw [lastCount_append]; exact hw hs
  | log => rw [lastCount_append]; exact hw hs
  | finish => rw [lastCount_append]; exact hw hs
  | accept =>
    rw [List.append_nil]
    rw [Settled, List.any_append, Bool.or_eq_false_iff] at hs
    exact hw hs.1
  | refuse i _ hh =>
    rw [List.append_nil]
    exact hw (inFlight_replaced w.handlers i _ .over hh rfl hs)
  | connect i _ hh =>
    have hnew := inFlight_new w.handlers i _ (.joining (w.clientCount+1)) hh rfl
    rw [Settled, hnew] at hs
    cases hs
  | disconnect i _ hh =>
    have hnew := inFlight_new w.handlers i _ (.leaving (w.clientCount-1)) hh rfl
    rw [Settled, hnew] at hs
    cases hs
  | reportIn i n _ hh => exact report_shows w i n _ _ hh rfl (hc i rfl) hs shown es
  | reportOut i n _ hh => exact report_shows w i n _ _ hh rfl (hc i rfl) hs shown es
  | exit _ hf =>
    rw [List.append_nil]
    exact hw hf

/-- The channel of the window's worker, against the worker itself. -/
structure Tracks (shown : ℕ) (es : List WorkerEvent) (w : Worker) : Prop where
  stopped : hasStopped es = decide (w.phase ≠ .serving)
  shows : Shows shown es w
  exited : w.phase = .exited → w.clientCount = 0

theorem step_tracks (w : Worker) (a : WorkerAct) (r : Worker × List WorkerEvent)
    (h : w.step a = some r) (hc : ∀ i, a = .report i → reportsCounter w i = true)
    (hx : a = .exit → w.handlers.all resting = true) (hw : Counted w) (shown : ℕ)
    (es : List WorkerEvent) (ht : Tracks shown es w) : Tracks shown (es++r.2) r.1 := by
  refine ⟨step_stopped w a r h es ht.stopped,step_shows w a r h hc shown es ht.shows,?_⟩
  obtain ⟨w',es'⟩ := r
  have hstep := worker_step_cases w a (w',es') h
  intro hp
  simp only at hstep hp ⊢
  cases hstep with
  | finish => cases hp
  | exit hstopping hf =>
    have hcount := hw.running (by rw [hstopping]; exact WorkerPhase.noConfusion)
    exact hcount.trans (resting_not_counted w.handlers (hx rfl)).1
  | ready => exact ht.exited hp
  | relay => exact ht.exited hp
  | log => exact ht.exited hp
  | accept hp' => exact absurd hp hp'
  | refuse _ hp' _ => exact absurd hp hp'
  | connect _ hp' _ => exact absurd hp hp'
  | disconnect _ hp' _ => exact absurd hp hp'
  | reportIn _ _ hp' _ => exact absurd hp hp'
  | reportOut _ _ hp' _ => exact absurd hp hp'

/-- Where the handlers rest the last count sent is 0. -/
theorem rested_count (w : Worker) (hw : Counted w) (shown : ℕ) (es : List WorkerEvent)
    (ht : Tracks shown es w) (hr : w.handlers.all resting = true) : lastCount shown es = 0 := by
  obtain ⟨hcount,hsettled⟩ := resting_not_counted w.handlers hr
  rw [ht.shows hsettled]
  by_cases hp : w.phase = .exited
  · exact ht.exited hp
  · rw [hw.running hp, hcount]

/-! ## The window and its worker -/

/-- What has been taken from the channel and not gone through yet. -/
def taken : Ui → List WorkerEvent
  | .collecting pending => pending
  | .processing pending => pending
  | .joining _ _ pending => pending
  | _ => []

/-- No client of a worker is connected, nor counted or reported half-way. -/
def rests (g : Gui) (i : ℕ) : Bool := g.workers[i]?.all (fun w => w.handlers.all resting)

/-- The window holds the channel of the worker. -/
def listens (g : Gui) (i : ℕ) : Bool := g.app.workerRx.any (fun r => r.1 = i)

/-- The handlers rest when a drain that has taken that the worker stopped
finds the channel empty. -/
def restsAtStop (g : Gui) : Bool :=
  match g.ui, g.app.workerRx with
  | .collecting pending, some (i,[]) => !hasStopped pending || rests g i
  | _, _ => true

/-- The steps after which the number on show can still be right. -/
def clear (g : Gui) : Act → Bool
  | .worker i (.report h) => !listens g i || g.workers[i]?.all (fun w => reportsCounter w h)
  | .worker i .exit => !listens g i || rests g i
  | .receive => restsAtStop g
  | _ => true

def connectedClients (g : Gui) : ℕ := (g.workers.flatMap Worker.handlers).count .connected

/-- Nothing is left to take or to go through, and no handler is in flight. -/
structure Quiet (g : Gui) : Prop where
  ui : g.ui = .idle
  drained : ∀ i queue, g.app.workerRx = some (i,queue) → queue = []
  settled : ∀ w ∈ g.workers, Settled w

structure Truthful (g : Gui) : Prop where
  counts : ∀ w ∈ g.workers, Counted w
  tracked : InUse g.ui → ∀ (i : ℕ) queue, g.app.workerRx = some (i,queue) →
    ∃ w, g.workers[i]? = some w ∧ Tracks g.app.clientCount (taken g.ui++queue) w
  ended : InUse g.ui → g.app.workerRx = none → lastCount g.app.clientCount (taken g.ui) = 0
  stopping : ∀ pending, g.ui = .processing pending → hasStopped pending = true →
    lastCount g.app.clientCount pending = 0
  detached : ∀ i result pending, g.ui = .joining i result pending → g.app.workerRx = none

theorem new_truthful : Truthful .new where
  counts w h := by cases h
  tracked _ i queue h := by cases h
  ended _ _ := rfl
  stopping pending h := by cases h
  detached i result pending h := by cases h

section Steps

variable (g : Gui) (hg : Truthful g)
include hg

theorem startWorker_truthful (hui : g.ui = .idle) : Truthful g.startWorker := by
  by_cases hr : g.app.running = true
  · have hs : g.startWorker = g := by
      rw [Gui.startWorker, start_running g.app hr, if_pos hr, ← hui]
    rwa [hs]
  · have hf : g.app.running = false := by simpa using hr
    obtain ⟨_,h2,h3,_,_⟩ := start_stopped g.app hf g.workers.length
    constructor
    · intro w hw
      rw [Gui.startWorker, if_neg hr] at hw
      rcases List.mem_append.mp hw with hold | hnew
      · exact hg.counts w hold
      · rw [List.mem_singleton.mp hnew]
        exact new_counted
    · intro _ i queue hrx
      change (g.app.start g.workers.length).workerRx = _ at hrx
      rw [h3] at hrx
      cases hrx
      refine ⟨.new,?_,⟨rfl,fun _ => h2,fun _ => rfl⟩⟩
      simp [Gui.startWorker, hf]
    · intro _ hrx
      change (g.app.start g.workers.length).workerRx = _ at hrx
      rw [h3] at hrx
      cases hrx
    · intro pending h
      cases h
    · intro i result pending h
      cases h

theorem stop_truthful (hui : g.ui = .idle) : Truthful {g with app := g.app.stop} where
  counts := hg.counts
  tracked hu i queue hrx := by
    rw [stop_workerRx] at hrx
    simpa using hg.tracked hu i queue hrx
  ended hu hrx := by
    rw [stop_workerRx] at hrx
    simpa using hg.ended hu hrx
  stopping pending h := by
    rw [hui] at h
    cases h
  detached i result pending h := by
    rw [hui] at h
    cases h

theorem drain_truthful (hui : g.ui = .idle) : Truthful {g with ui := .collecting []} where
  counts := hg.counts
  tracked _ i queue hrx := by
    have ht := hg.tracked (by rw [hui]; trivial) i queue hrx
    rwa [hui] at ht
  ended _ hrx := by
    have he := hg.ended (by rw [hui]; trivial) hrx
    rwa [hui] at he
  stopping pending h := by cases h
  detached i result pending h := by cases h

/-- A drain goes on to what it has taken. -/
theorem processing_truthful (pending : List WorkerEvent) (hui : g.ui = .collecting pending)
    (hz : hasStopped pending = true → lastCount g.app.clientCount pending = 0) :
    Truthful {g with ui := .processing pending} := by
  have hu : InUse g.ui := by rw [hui]; trivial
  have ht := hg.tracked hu
  have he := hg.ended hu
  rw [hui] at ht he
  refine ⟨hg.counts,fun _ => ht,fun _ => he,?_,fun _ _ p h => by cases h⟩
  intro p hp hs
  cases hp
  exact hz hs

theorem concluded_truthful (app : App) (result : Except String Unit) (pending : List WorkerEvent)
    (hrx : app.workerRx = none) (hzero : lastCount app.clientCount pending = 0) :
    Truthful {g with app := app.conclude result, ui := .processing pending} := by
  refine ⟨hg.counts,?_,?_,?_,fun _ _ p h => by cases h⟩
  · intro _ j queue h
    rw [conclude_workerRx, hrx] at h
    cases h
  · intro _ _
    rw [conclude_clientCount]
    exact hzero
  · intro p hp _
    cases hp
    rw [conclude_clientCount]
    exact hzero

theorem receiveNext_truthful (pending : List WorkerEvent) (hui : g.ui = .collecting pending)
    (hc : restsAtStop g = true) : Truthful (g.receiveNext pending) := by
  have hu : InUse g.ui := by rw [hui]; trivial
  have ht := hg.tracked hu
  have he := hg.ended hu
  rw [hui] at ht he
  simp only [restsAtStop, hui] at hc
  cases hrx : g.app.workerRx with
  | none =>
    have hnext : g.receiveNext pending = {g with ui := .processing pending} := by
      rw [Gui.receiveNext, hrx]
    rw [hnext]
    exact processing_truthful g hg pending hui (fun _ => he hrx)
  | some r =>
    obtain ⟨i,queue⟩ := r
    cases queue with
    | nil =>
      have hnext : g.receiveNext pending = {g with ui := .processing pending} := by
        rw [Gui.receiveNext, hrx]
      rw [hnext]
      apply processing_truthful g hg pending hui
      intro hs
      obtain ⟨w,hw,htr⟩ := ht i [] hrx
      rw [taken, List.append_nil] at htr
      have hrest : w.handlers.all resting = true := by
        rw [hrx] at hc
        simpa [hs, rests, hw] using hc
      exact rested_count w (hg.counts w (List.mem_of_getElem? hw)) _ _ htr hrest
    | cons e queue =>
      have hnext : g.receiveNext pending =
          {g with app := {g.app with workerRx := some (i,queue)}
                  ui := .collecting (pending++[e])} := by
        rw [Gui.receiveNext, hrx]
      rw [hnext]
      refine ⟨hg.counts,?_,fun _ h => (by cases h),fun p h => (by cases h),
        fun _ _ p h => by cases h⟩
      intro _ j q hj
      cases hj
      obtain ⟨w,hw,htr⟩ := ht i (e::queue) hrx
      refine ⟨w,hw,?_⟩
      have hsame : taken (.collecting (pending++[e]))++queue = pending++e::queue := by
        simp [taken]
      rw [hsame]
      exact htr

theorem handleNext_truthful (pending : List WorkerEvent) (hui : g.ui = .processing pending) :
    Truthful (g.handleNext pending) := by
  have hu : InUse g.ui := by rw [hui]; trivial
  have ht := hg.tracked hu
  have he := hg.ended hu
  have hs := hg.stopping pending hui
  rw [hui] at ht he
  cases pending with
  | nil =>
    exact ⟨hg.counts,fun _ => ht,fun _ => he,fun p h => (by cases h),fun _ _ p h => by cases h⟩
  | cons e pending =>
    cases e with
    | stopped result =>
      have hzero : lastCount g.app.clientCount pending = 0 := hs rfl
      unfold Gui.handleNext
      simp only
      split
      · exact ⟨hg.counts,fun _ _ _ h => (by cases h),fun _ _ => hzero,fun p h => (by cases h),
          fun _ _ _ _ => rfl⟩
      · exact concluded_truthful g hg _ result pending rfl hzero
    | _ =>
      refine ⟨hg.counts,?_,?_,?_,fun _ _ p h => by cases h⟩
      · intro _ i queue hrx
        obtain ⟨w,hw,htr⟩ := ht i queue hrx
        exact ⟨w,hw,⟨htr.stopped,htr.shows,htr.exited⟩⟩
      · intro _ hrx
        exact he hrx
      · intro p hp hstop
        cases hp
        exact hs hstop

theorem joined_truthful (i : ℕ) (result : Except String Unit) (pending : List WorkerEvent)
    (hui : g.ui = .joining i result pending) :
    Truthful {g with app := g.app.conclude result, ui := .processing pending} := by
  have hrx := hg.detached i result pending hui
  have hzero := hg.ended (by rw [hui]; trivial) hrx
  rw [hui] at hzero
  exact concluded_truthful g hg g.app result pending hrx hzero

theorem closed_truthful (app : App) (ui : Ui) (hu : ¬ InUse ui) :
    Truthful {g with app := app, ui := ui} := by
  refine ⟨hg.counts,fun h => absurd h hu,fun h => absurd h hu,?_,?_⟩
  · intro p hp
    cases hp
    exact absurd trivial hu
  · intro i result p hp
    cases hp
    exact absurd trivial hu

theorem dropApp_truthful : Truthful g.dropApp := by
  unfold Gui.dropApp
  simp only
  split
  · exact closed_truthful g hg _ _ id
  · exact closed_truthful g hg _ _ id

theorem worker_truthful (i : ℕ) (a : WorkerAct) (w : Worker) (r : Worker × List WorkerEvent)
    (hw : g.workers[i]? = some w) (hr : w.step a = some r)
    (hc : clear g (.worker i a) = true) :
    Truthful {g with app := g.app.deliver i r.2, workers := g.workers.set i r.1} := by
  refine ⟨?_,?_,?_,?_,?_⟩
  · intro v hv
    rcases List.mem_or_eq_of_mem_set hv with hold | rfl
    · exact hg.counts v hold
    · exact step_counted w a r (hg.counts w (List.mem_of_getElem? hw)) hr
  · intro hu j queue hrx
    rw [deliver_workerRx, Option.map_eq_some_iff] at hrx
    obtain ⟨⟨k,q⟩,hk,hq⟩ := hrx
    obtain ⟨v,hv,htr⟩ := hg.tracked hu k q hk
    rw [deliver_clientCount]
    by_cases hki : k = i
    · subst hki
      rw [if_pos rfl] at hq
      cases hq
      cases hw.symm.trans hv
      have hlistens : listens g k = true := by simp [listens, hk]
      have hreport : ∀ h, a = .report h → reportsCounter w h = true := by
        rintro h rfl
        simpa [clear, hlistens, hw] using hc
      have hrests : a = .exit → w.handlers.all resting = true := by
        rintro rfl
        simpa [clear, hlistens, rests, hw] using hc
      refine ⟨r.1,?_,?_⟩
      · have hlt := (List.getElem?_eq_some_iff.mp hw).1
        simp [hlt]
      · rw [← List.append_assoc]
        exact step_tracks w a r hr hreport hrests (hg.counts w (List.mem_of_getElem? hw)) _ _ htr
    · rw [if_neg hki] at hq
      cases hq
      exact ⟨v,by rw [List.getElem?_set_ne (Ne.symm hki)]; exact hv,htr⟩
  · intro hu hrx
    rw [deliver_workerRx, Option.map_eq_none_iff] at hrx
    rw [deliver_clientCount]
    exact hg.ended hu hrx
  · intro p hp hs
    rw [deliver_clientCount]
    exact hg.stopping p hp hs
  · intro j result p hp
    rw [deliver_workerRx, hg.detached j result p hp]
    rfl

end Steps

theorem step_truthful (g : Gui) (a : Act) (g' : Gui) (hg : Truthful g) (hc : clear g a = true)
    (h : step g a = some g') : Truthful g' := by
  cases step_cases g a g' h with
  | start hui => exact startWorker_truthful g hg hui
  | stop hui => exact stop_truthful g hg hui
  | drain hui => exact drain_truthful g hg hui
  | receive pending hui => exact receiveNext_truthful g hg pending hui hc
  | handle pending hui => exact handleNext_truthful g hg pending hui
  | joined i result pending hui hx => exact joined_truthful g hg i result pending hui
  | dropped i hui hx => exact closed_truthful g hg _ _ id
  | drop hui => exact dropApp_truthful g hg
  | worker i a w r hw hr => exact worker_truthful g hg i a w r hw hr hc

/-- Every step of the run is clear. -/
abbrev ClearRun (acts : List Act) : Prop := Meets step (fun g a => clear g a = true) .new acts

theorem run_truthful (acts : List Act) (g : Gui) (h : run step .new acts = some g)
    (hc : ClearRun acts) : Truthful g :=
  run_meets step _ Truthful step_truthful acts .new g new_truthful hc h

/-! ## Quiet states -/

theorem sole_handlers (l : List Worker) (i : ℕ) (w : Worker) (hw : l[i]? = some w)
    (h0 : ∀ j v, l[j]? = some v → j ≠ i → v.handlers = []) :
    l.flatMap Worker.handlers = w.handlers := by
  induction l generalizing i with
  | nil => cases hw
  | cons v l ih =>
    rw [List.flatMap_cons]
    cases i with
    | zero =>
      cases hw
      have hrest : l.flatMap Worker.handlers = [] := by
        rw [List.flatMap_eq_nil_iff]
        intro u hu
        obtain ⟨j,hj⟩ := List.mem_iff_getElem?.mp hu
        exact h0 (j+1) u hj (by omega)
      rw [hrest, List.append_nil]
    | succ i =>
      have hv : v.handlers = [] := h0 0 v rfl (by omega)
      rw [hv, List.nil_append]
      exact ih i hw (fun j u hu hj => h0 (j+1) u hu (by omega))

/-- In a settled worker the counted handlers are the connected ones. -/
theorem settled_count (w : Worker) (hw : Settled w) :
    w.handlers.countP counted = w.handlers.count .connected := by
  apply List.countP_congr
  intro x hx
  have hf := List.any_eq_false.mp hw x hx
  cases x <;> simp_all [counted, Handler.inFlight]

theorem quiet_idle_count (g : Gui) (hs : Sole g) (hg : Truthful g) (hui : g.ui = .idle)
    (hr : g.app.running = false) : g.app.clientCount = 0 := by
  have hu : InUse g.ui := by rw [hui]; trivial
  have hrx := (hs.agree hu).receiver
  rw [hr, Option.isSome_eq_false_iff, Option.isNone_iff_eq_none] at hrx
  have hzero := hg.ended hu hrx
  rwa [hui] at hzero

theorem exited_handlers (g : Gui) (hg : Truthful g) (i : ℕ) (w : Worker)
    (hw : g.workers[i]? = some w) (hn : ¬ Alive g i) : w.handlers = [] := by
  apply (hg.counts w (List.mem_of_getElem? hw)).exited
  by_contra hp
  exact hn ⟨w,hw,hp⟩

theorem quiet_count (g : Gui) (hs : Sole g) (hg : Truthful g) (hq : Quiet g) :
    g.app.clientCount = connectedClients g := by
  have hu : InUse g.ui := by rw [hq.ui]; trivial
  have hagree := hs.agree hu
  cases hrx : g.app.workerRx with
  | none =>
    have hr : g.app.running = false := by
      rw [← hagree.receiver, hrx]
      rfl
    have hnone := hagree.handle
    rw [hr, Option.isSome_eq_false_iff, Option.isNone_iff_eq_none] at hnone
    have hempty : g.workers.flatMap Worker.handlers = [] := by
      rw [List.flatMap_eq_nil_iff]
      intro w hw
      obtain ⟨i,hi⟩ := List.mem_iff_getElem?.mp hw
      apply exited_handlers g hg i w hi
      intro hp
      have hold := alive_held g hs (by simp [owner, hq.ui]) i hp
      rw [hnone] at hold
      cases hold
    rw [quiet_idle_count g hs hg hq.ui hr, connectedClients, hempty]
    rfl
  | some r =>
    obtain ⟨i,queue⟩ := r
    cases hq.drained i queue hrx
    obtain ⟨w,hw,htr⟩ := hg.tracked hu i [] hrx
    rw [hq.ui] at htr
    have hserving : w.phase = .serving := by
      by_contra hp
      have hstop := htr.stopped
      simp [taken, hasStopped, hp] at hstop
    have hsettled := hq.settled w (List.mem_of_getElem? hw)
    have hshown : g.app.clientCount = w.clientCount := htr.shows hsettled
    have hcount := (hg.counts w (List.mem_of_getElem? hw)).running
      (by rw [hserving]; exact WorkerPhase.noConfusion)
    have hhandlers : g.workers.flatMap Worker.handlers = w.handlers := by
      apply sole_handlers g.workers i w hw
      -- every other worker has exited
      intro j v hv hji
      apply exited_handlers g hg j v hv
      intro hp
      have hwalive : Alive g i := ⟨w,hw,by rw [hserving]; exact WorkerPhase.noConfusion⟩
      have hij := (hs.alive j hp).symm.trans (hs.alive i hwalive)
      exact hji (Option.some.inj hij)
    rw [hshown, hcount, settled_count w hsettled, connectedClients, hhandlers]

/-- In runs of clear steps the number on show is that of the connected
handlers in every quiet state, and 0 once the worker has stopped. -/
theorem shown_count_true (acts : List Act) (g : Gui) (h : run step .new acts = some g)
    (hc : ClearRun acts) :
    (Quiet g → g.app.clientCount = connectedClients g) ∧
    (g.ui = .idle → g.app.running = false → g.app.clientCount = 0) := by
  have hs := run_sole acts g h
  have hg := run_truthful acts g h hc
  exact ⟨quiet_count g hs hg,quiet_idle_count g hs hg⟩

/-- A client comes and is reported, and leaves before the worker stops. -/
def visit : List Act :=
  [.start,.worker 0 (.ready "a" "b"),.worker 0 .accept,.worker 0 (.connect 0),
   .worker 0 (.report 0),.worker 0 (.disconnect 0),.worker 0 (.report 0),.stop,
   .worker 0 (.finish (.ok ())),.drain,.receive,.receive,.receive,.receive,.receive,.handle,
   .handle,.handle,.handle,.worker 0 .exit,.joined,.handle]

theorem visit_shown : ∃ g, run step .new visit = some g ∧
    (Quiet g → g.app.clientCount = connectedClients g) ∧
    (g.ui = .idle → g.app.running = false → g.app.clientCount = 0) :=
  ⟨_,rfl,shown_count_true visit _ rfl
    ⟨rfl,rfl,rfl,rfl,rfl,rfl,rfl,rfl,rfl,rfl,rfl,rfl,rfl,rfl,rfl,rfl,rfl,rfl,rfl,rfl,rfl,rfl,
      trivial⟩⟩

/-- Two clients whose reports cross. -/
def crossedReports : List Act :=
  [.start,.worker 0 (.ready "a" "b"),.worker 0 .accept,.worker 0 .accept,.worker 0 (.connect 0),
   .worker 0 (.connect 1),.worker 0 (.report 1),.worker 0 (.report 0),.drain,.receive,.receive,
   .receive,.receive,.handle,.handle,.handle,.handle]

/-- A client that is still connected when the worker stops. -/
def cutOff : List Act :=
  [.start,.worker 0 (.ready "a" "b"),.worker 0 .accept,.worker 0 (.connect 0),
   .worker 0 (.report 0),.stop,.worker 0 (.finish (.ok ())),.drain,.receive,.receive,.receive,
   .receive,.handle,.handle,.handle,.worker 0 .exit,.joined,.handle]

theorem shown_count_wrong :
    (∃ g, run step .new crossedReports = some g ∧ Quiet g ∧ g.app.clientCount = 1 ∧
      connectedClients g = 2) ∧
    ∃ g, run step .new cutOff = some g ∧ g.ui = .idle ∧ g.app.running = false ∧
      g.app.clientCount = 1 := by
  refine ⟨⟨_,rfl,⟨rfl,?_,?_⟩,rfl,rfl⟩,_,rfl,rfl,rfl,rfl⟩
  · intro i queue h
    cases h
    rfl
  · intro w hw
    cases List.mem_singleton.mp hw
    rfl

end RlStatsApi.ClientCounts
