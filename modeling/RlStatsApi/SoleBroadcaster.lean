import RlStatsApi.BroadcastGui

/-!
# One broadcaster at a time

The window holds a worker by its handle, or joins it. Every other worker has
exited. Between the calls of the window its flag, its receiver, its shutdown
sender and its handle are there together or not at all.
-/

set_option autoImplicit false

namespace RlStatsApi.SoleBroadcaster
open RlStatsApi.BroadcastGui RlStatsApi.LabelledRuns

/-- The thread of the worker has not exited. -/
def Alive (g : Gui) (i : ℕ) : Prop := ∃ w, g.workers[i]? = some w ∧ w.phase ≠ .exited

/-- The worker that the window holds or joins. -/
def owner (g : Gui) : Option ℕ :=
  match g.ui with
  | .joining i _ _ => some i
  | .dropping i => some i
  | _ => g.app.workerHandle

structure Agree (app : App) : Prop where
  receiver : app.workerRx.isSome = app.running
  shutdown : app.shutdownTx.isSome = app.running
  handle : app.workerHandle.isSome = app.running

def InUse : Ui → Prop
  | .dropping _ => False
  | .dropped => False
  | _ => True

structure Sole (g : Gui) : Prop where
  agree : InUse g.ui → Agree g.app
  alive : ∀ i, Alive g i → owner g = some i

theorem step_not_exited (w w' : Worker) (a : WorkerAct) (es : List WorkerEvent)
    (h : w.step a = some (w',es)) : w.phase ≠ .exited := by
  intro hp
  cases worker_step_cases w a (w',es) h <;> simp_all

theorem exited_not_alive (g : Gui) (i : ℕ) (h : g.hasExited i = true) : ¬ Alive g i := by
  rintro ⟨w,hw,hp⟩
  simp only [Gui.hasExited, hw, Option.any_some, decide_eq_true_eq] at h
  exact hp h

theorem new_sole : Sole .new where
  agree _ := ⟨rfl,rfl,rfl⟩
  alive i h := by
    obtain ⟨w,hw,_⟩ := h
    cases hw

section Steps

variable (g : Gui) (hg : Sole g)
include hg

theorem alive_held (ho : owner g = g.app.workerHandle) (i : ℕ) (hi : Alive g i) :
    g.app.workerHandle = some i := ho ▸ hg.alive i hi

theorem startWorker_sole (hui : g.ui = .idle) : Sole g.startWorker := by
  have ha : Agree g.app := hg.agree (by rw [hui]; trivial)
  by_cases hr : g.app.running = true
  · have hs : g.startWorker = g := by
      rw [Gui.startWorker, start_running g.app hr, if_pos hr, ← hui]
    rwa [hs]
  · have hf : g.app.running = false := by simpa using hr
    obtain ⟨h1,_,h3,h4,h5⟩ := start_stopped g.app hf g.workers.length
    have hnone : g.app.workerHandle = none := by
      have := ha.handle
      rwa [hf, Option.isSome_eq_false_iff, Option.isNone_iff_eq_none] at this
    constructor
    · intro _
      exact ⟨by simp [Gui.startWorker, h1, h3],by simp [Gui.startWorker, h1, h4],
        by simp [Gui.startWorker, h1, h5]⟩
    · intro i hi
      obtain ⟨w,hw,hp⟩ := hi
      rw [Gui.startWorker, if_neg hr] at hw
      show (g.app.start g.workers.length).workerHandle = some i
      rw [h5]
      by_cases hlt : i < g.workers.length
      · -- the workers before it are those of the old state, and none was alive there
        rw [List.getElem?_append_left hlt] at hw
        have hold := alive_held g hg (by simp [owner, hui]) i ⟨w,hw,hp⟩
        rw [hnone] at hold
        cases hold
      · have hlen := (List.getElem?_eq_some_iff.mp hw).1
        rw [List.length_append, List.length_singleton] at hlen
        congr 1
        omega

theorem stop_sole (hui : g.ui = .idle) : Sole {g with app := g.app.stop} := by
  have ha : Agree g.app := hg.agree (by rw [hui]; trivial)
  refine ⟨fun _ => ⟨by simpa using ha.receiver,by simpa using ha.shutdown,
    by simpa using ha.handle⟩,?_⟩
  intro i hi
  have hold := alive_held g hg (by simp [owner, hui]) i hi
  simpa [owner, hui] using hold

theorem drain_sole (hui : g.ui = .idle) (pending : List WorkerEvent) :
    Sole {g with ui := .collecting pending} := by
  exact ⟨fun _ => hg.agree (by rw [hui]; trivial),alive_held g hg (by simp [owner, hui])⟩

theorem receiveNext_sole (pending : List WorkerEvent) (hui : g.ui = .collecting pending) :
    Sole (g.receiveNext pending) := by
  have ha : Agree g.app := hg.agree (by rw [hui]; trivial)
  unfold Gui.receiveNext
  split
  · next j e queue hrx =>
    refine ⟨fun _ => ⟨?_,ha.shutdown,ha.handle⟩,?_⟩
    · rw [← ha.receiver, hrx]
      rfl
    · exact alive_held g hg (by simp [owner, hui])
  · exact ⟨fun _ => ha,alive_held g hg (by simp [owner, hui])⟩

theorem handleNext_sole (pending : List WorkerEvent) (hui : g.ui = .processing pending) :
    Sole (g.handleNext pending) := by
  have ha : Agree g.app := hg.agree (by rw [hui]; trivial)
  have hheld := alive_held g hg (by simp [owner, hui])
  unfold Gui.handleNext
  split
  · exact ⟨fun _ => ha,hheld⟩
  · split
    · next j hj =>
      refine ⟨fun _ => ⟨rfl,rfl,rfl⟩,?_⟩
      intro i hi
      show some j = some i
      rw [← hj]
      exact hheld i hi
    · next hnone =>
      constructor
      · intro _
        exact ⟨by simp [App.detach],by simp [App.detach],by simp [App.detach]⟩
      · intro i hi
        have hold := hheld i hi
        rw [hnone] at hold
        cases hold
  · refine ⟨fun _ => ⟨by simpa using ha.receiver,by simpa using ha.shutdown,
      by simpa using ha.handle⟩,?_⟩
    intro i hi
    have hold := hheld i hi
    simpa [owner] using hold

/-- Joining ends when the last worker has exited. -/
theorem joined_sole (j : ℕ) (result : Except String Unit) (pending : List WorkerEvent)
    (hui : g.ui = .joining j result pending) (hj : g.hasExited j = true) :
    Sole {g with app := g.app.conclude result, ui := .processing pending} := by
  have ha : Agree g.app := hg.agree (by rw [hui]; trivial)
  refine ⟨fun _ => ⟨by simpa using ha.receiver,by simpa using ha.shutdown,
    by simpa using ha.handle⟩,?_⟩
  intro i hi
  have hold := hg.alive i hi
  simp only [owner, hui, Option.some.injEq] at hold
  subst hold
  exact absurd hi (exited_not_alive g j hj)

theorem dropped_sole (j : ℕ) (hui : g.ui = .dropping j) (hj : g.hasExited j = true) :
    Sole {g with ui := .dropped} := by
  refine ⟨fun h => h.elim,?_⟩
  intro i hi
  have hold := hg.alive i hi
  simp only [owner, hui, Option.some.injEq] at hold
  subst hold
  exact absurd hi (exited_not_alive g j hj)

theorem dropApp_sole (hui : g.ui = .idle) : Sole g.dropApp := by
  have hheld := alive_held g hg (by simp [owner, hui])
  have hsame : (if g.app.running = true then g.app.stop else g.app).workerHandle =
      g.app.workerHandle := by
    split_ifs
    · exact stop_workerHandle g.app
    · rfl
  unfold Gui.dropApp
  simp only [hsame]
  split
  · next j hj =>
    refine ⟨fun h => h.elim,?_⟩
    intro i hi
    show some j = some i
    rw [← hj]
    exact hheld i hi
  · next hnone =>
    refine ⟨fun h => h.elim,?_⟩
    intro i hi
    have hold := hheld i hi
    rw [hnone] at hold
    cases hold

theorem worker_sole (i : ℕ) (a : WorkerAct) (w : Worker) (r : Worker × List WorkerEvent)
    (hw : g.workers[i]? = some w) (hr : w.step a = some r) :
    Sole {g with app := g.app.deliver i r.2, workers := g.workers.set i r.1} := by
  constructor
  · intro hu
    have ha := hg.agree hu
    refine ⟨?_,by simpa using ha.shutdown,by simpa using ha.handle⟩
    simpa [deliver_workerRx] using ha.receiver
  · intro j hj
    obtain ⟨v,hv,hp⟩ := hj
    have hold : Alive g j := by
      rw [List.getElem?_set] at hv
      split_ifs at hv with hij hlt
      · subst hij
        exact ⟨w,hw,step_not_exited w r.1 a r.2 hr⟩
      · exact ⟨v,hv,hp⟩
    have ho := hg.alive j hold
    unfold owner at ho ⊢
    simpa using ho

end Steps

theorem step_sole (g : Gui) (a : Act) (g' : Gui) (hg : Sole g) (h : step g a = some g') :
    Sole g' := by
  cases step_cases g a g' h with
  | start hui => exact startWorker_sole g hg hui
  | stop hui => exact stop_sole g hg hui
  | drain hui => exact drain_sole g hg hui []
  | receive pending hui => exact receiveNext_sole g hg pending hui
  | handle pending hui => exact handleNext_sole g hg pending hui
  | joined i result pending hui hx => exact joined_sole g hg i result pending hui hx
  | dropped i hui hx => exact dropped_sole g hg i hui hx
  | drop hui => exact dropApp_sole g hg hui
  | worker i a w r hw hr => exact worker_sole g hg i a w r hw hr

theorem run_sole (acts : List Act) (g : Gui) (h : run step .new acts = some g) : Sole g :=
  run_invariant step Sole step_sole acts .new g new_sole h

/-- Between calls of the window the four fields agree, at all times at most
one worker thread is alive, and none is when the window would start another. -/
theorem one_broadcaster (acts : List Act) (g : Gui) (h : run step .new acts = some g) :
    (g.ui = .idle → g.app.workerRx.isSome = g.app.running ∧
      g.app.shutdownTx.isSome = g.app.running ∧ g.app.workerHandle.isSome = g.app.running) ∧
    (∀ i j, Alive g i → Alive g j → i = j) ∧
    (g.ui = .idle → g.app.running = false → ∀ i, ¬ Alive g i) := by
  have hg := run_sole acts g h
  refine ⟨?_,?_,?_⟩
  · intro hui
    have ha := hg.agree (by rw [hui]; trivial)
    exact ⟨ha.receiver,ha.shutdown,ha.handle⟩
  · intro i j hi hj
    have hij := (hg.alive i hi).symm.trans (hg.alive j hj)
    exact Option.some.inj hij
  · intro hui hr i hi
    have ha := hg.agree (by rw [hui]; trivial)
    have hold := alive_held g hg (by simp [owner, hui]) i hi
    have hh := ha.handle
    rw [hold, hr] at hh
    cases hh

/-- A worker that is stopped twice, and another one after it. -/
def restart : List Act :=
  [.start,.worker 0 (.ready "a" "b"),.stop,.stop,.worker 0 (.finish (.ok ())),.drain,.receive,
   .receive,.receive,.handle,.handle,.worker 0 .exit,.joined,.handle,.start]

theorem restarted_alone : ∃ g, run step .new restart = some g ∧ g.app.running = true ∧
    ∀ i j, Alive g i → Alive g j → i = j :=
  ⟨_,rfl,rfl,(one_broadcaster restart _ rfl).2.1⟩

end RlStatsApi.SoleBroadcaster
