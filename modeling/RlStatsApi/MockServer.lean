import RlStatsApi.MockRoster
import RlStatsApi.OverlayClients
import RlStatsApi.SosTranslation

/-!
# The mock broadcast server

At each tick the main task sends the next envelope of a scenario, which is
chosen from the templates by name; an update state is drawn anew every time.
After the last envelope the task starts again or stops. The rest of the server
is that of the broadcaster.
-/

set_option autoImplicit false

namespace RlStatsApi.MockServer
open RlStatsApi.JsonValue RlStatsApi.CheckedState RlStatsApi.SosTranslation
open RlStatsApi.LabelledRuns RlStatsApi.BoundedBroadcast RlStatsApi.OverlayClients
open RlStatsApi.MockBroadcast RlStatsApi.MockRoster

structure CliOptions where
  wsHost : String
  wsPort : UInt16
  intervalMs : U64
  maxEvents : Option ℕ
  eventFilters : List String
  loopEvents : Bool
  debug : Bool

/-! ## Scenarios -/

/-- A set of names in the order in which it is printed. -/
def nameSet (names : List String) : List String :=
  (SortedAssoc.insertAll (names.map (fun name => (name,()))) []).map Prod.fst

def availableEvents (templates : List SosEnvelope) : List String :=
  nameSet (templates.map SosEnvelope.event)

def unknownFilters (templates : List SosEnvelope) (filters : List String) : List String :=
  (nameSet filters).filter (fun f => decide (f ∉ availableEvents templates))

def unknownMessage (templates : List SosEnvelope) (filters : List String) : String :=
  "Unknown event filter(s): "++String.intercalate ", " (unknownFilters templates filters)++
    "\nAvailable events: "++String.intercalate ", " (availableEvents templates)

def selectScenario (templates : List SosEnvelope) (filters : List String) :
    Except String (List SosEnvelope) :=
  if filters = [] then .ok templates
  else if unknownFilters templates filters ≠ [] then .error (unknownMessage templates filters)
  else
    let selected := templates.filter (fun t => decide (t.event ∈ nameSet filters))
    if selected = [] then .error "event filter resulted in an empty scenario" else .ok selected

def matchGuidForScenario (scenario : List SosEnvelope) : String :=
  (scenario.findSome? (fun e =>
    if e.event = "game:update_state" then (e.data.get "match_guid").bind Value.asStr
    else none)).getD "M-EXAMPLE-123"

theorem mem_nameSet (names : List String) (x : String) : x ∈ nameSet names ↔ x ∈ names := by
  rw [nameSet, SortedAssoc.mem_keys_insertAll, List.map_map]
  simp [Function.comp_def]

theorem nameSet_sorted (names : List String) : (nameSet names).Pairwise (· < ·) := by
  rw [nameSet, List.pairwise_map]
  exact SortedAssoc.sorted_insertAll _ _ List.Pairwise.nil

/-- Known is a name that some template has. -/
theorem mem_availableEvents (templates : List SosEnvelope) (x : String) :
    x ∈ availableEvents templates ↔ ∃ t ∈ templates, t.event = x := by
  rw [availableEvents, mem_nameSet, List.mem_map]

theorem mem_unknownFilters (templates : List SosEnvelope) (filters : List String) (x : String) :
    x ∈ unknownFilters templates filters ↔ x ∈ filters ∧ ∀ t ∈ templates, t.event ≠ x := by
  simp [unknownFilters, mem_nameSet, mem_availableEvents]

theorem unknownFilters_nil (templates : List SosEnvelope) (filters : List String) :
    unknownFilters templates filters = [] ↔ ∀ f ∈ filters, ∃ t ∈ templates, t.event = f := by
  rw [List.eq_nil_iff_forall_not_mem]
  simp only [mem_unknownFilters, not_and, not_forall, not_not, exists_prop]

/-- Filters that are all known select some template. -/
theorem selected_ne_nil (templates : List SosEnvelope) (filters : List String)
    (hf : filters ≠ []) (hk : ∀ f ∈ filters, ∃ t ∈ templates, t.event = f) :
    templates.filter (fun t => decide (t.event ∈ nameSet filters)) ≠ [] := by
  obtain ⟨f,hmem⟩ := List.exists_mem_of_ne_nil filters hf
  obtain ⟨t,ht,rfl⟩ := hk f hmem
  intro hnil
  have hin : t ∈ templates.filter (fun t => decide (t.event ∈ nameSet filters)) := by
    simp [ht, mem_nameSet, hmem]
  rw [hnil] at hin
  cases hin

theorem filter_nameSet (templates : List SosEnvelope) (filters : List String) :
    templates.filter (fun t => decide (t.event ∈ nameSet filters)) =
      templates.filter (fun t => decide (t.event ∈ filters)) := by
  congr 1
  funext t
  simp only [mem_nameSet]

theorem selected_nonempty (templates scenario : List SosEnvelope) (filters : List String)
    (h : selectScenario templates filters = .ok scenario) (ht : templates ≠ []) :
    scenario ≠ [] := by
  unfold selectScenario at h
  split_ifs at h
  · cases h
    exact ht
  · simp only at h
    split_ifs at h with hsel
    cases h
    exact hsel

/-- A scenario is chosen exactly when every filter is known: the templates it
names, in their order, and at least one. Otherwise the message names the
unknown filters and the events there are, each once and in order. The error
for an empty scenario never occurs. -/
theorem scenario_selected (templates : List SosEnvelope) (filters : List String) :
    (∀ scenario, selectScenario templates filters = .ok scenario ↔
      (∀ f ∈ filters, ∃ t ∈ templates, t.event = f) ∧
      scenario = templates.filter (fun t => decide (filters = [] ∨ t.event ∈ filters))) ∧
    (∀ scenario, selectScenario templates filters = .ok scenario → templates ≠ [] →
      scenario ≠ []) ∧
    (∀ message, selectScenario templates filters = .error message →
      message = unknownMessage templates filters ∧
      (∃ f ∈ filters, ∀ t ∈ templates, t.event ≠ f) ∧
      (unknownFilters templates filters).Pairwise (· < ·) ∧
      (∀ f, f ∈ unknownFilters templates filters ↔
        f ∈ filters ∧ ∀ t ∈ templates, t.event ≠ f) ∧
      (availableEvents templates).Pairwise (· < ·) ∧
      ∀ x, x ∈ availableEvents templates ↔ ∃ t ∈ templates, t.event = x) := by
  unfold selectScenario
  by_cases hf : filters = []
  · subst hf
    refine ⟨?_,?_,?_⟩
    · intro scenario
      simp [eq_comm]
    · intro scenario h hne
      cases h
      exact hne
    · intro message h
      cases h
  · rw [if_neg hf]
    by_cases hk : unknownFilters templates filters = []
    · have hall := (unknownFilters_nil templates filters).mp hk
      have hsel := selected_ne_nil templates filters hf hall
      simp only [hk, ne_eq, not_true, if_false, if_neg hsel]
      refine ⟨?_,?_,?_⟩
      · intro scenario
        rw [filter_nameSet]
        simp only [hf, false_or]
        constructor
        · intro h
          cases h
          exact ⟨hall,rfl⟩
        · rintro ⟨_,rfl⟩
          rfl
      · intro scenario h _
        cases h
        exact hsel
      · intro message h
        cases h
    · simp only [ne_eq, hk, not_false_iff, if_true]
      refine ⟨?_,?_,?_⟩
      · intro scenario
        constructor
        · intro h
          cases h
        · rintro ⟨hall,_⟩
          exact absurd ((unknownFilters_nil templates filters).mpr hall) hk
      · intro scenario h
        cases h
      · intro message h
        cases h
        obtain ⟨f,hmem⟩ := List.exists_mem_of_ne_nil _ hk
        exact ⟨rfl,⟨f,(mem_unknownFilters templates filters f).mp hmem⟩,
          (nameSet_sorted filters).filter _,mem_unknownFilters templates filters,
          nameSet_sorted _,mem_availableEvents templates⟩

/-! ## Sending -/

def envelopeForSend (template : SosEnvelope) : Gen SosEnvelope :=
  if template.event = "game:update_state" then do
    let data ← nextUpdateStatePayload
    return {template with data := data}
  else return template

/-- The first sends of a scenario played over and over. -/
def sendFirst (scenario : List SosEnvelope) : ℕ → Gen (List SosEnvelope)
  | 0 => return []
  | k+1 => do
    let before ← sendFirst scenario k
    let template ← scenario[k%scenario.length]?
    let e ← envelopeForSend template
    return before++[e]

/-- What is sent for a template: the template, or a drawn update state. -/
def SentFor (template e : SosEnvelope) : Prop :=
  e.event = template.event ∧ (template.event ≠ "game:update_state" → e = template)

def updateStates (es : List SosEnvelope) : List Value :=
  (es.filter (fun e => decide (e.event = "game:update_state"))).map SosEnvelope.data

theorem updateStates_snoc (es : List SosEnvelope) (e : SosEnvelope) :
    updateStates (es++[e]) =
      updateStates es++if e.event = "game:update_state" then [e.data] else [] := by
  unfold updateStates
  rw [List.filter_append, List.map_append]
  by_cases he : e.event = "game:update_state" <;> simp [he]

/-- The update states among the envelopes are those of the generator's run
from its first state. -/
structure Rostered (start : UpdateStateRandomizer) (es : List SosEnvelope) (ticks : List Tick)
    (r : UpdateStateRandomizer) : Prop where
  states : updateStates es = ticks.map Tick.payload
  drawn : drawTicks ticks.length start = some (ticks,r)
  kept : Kept ticks r

theorem envelopeForSend_returns (template : SosEnvelope) (start : UpdateStateRandomizer)
    (es : List SosEnvelope) (ticks : List Tick) (r : UpdateStateRandomizer)
    (h : Rostered start es ticks r) :
    Returns (envelopeForSend template) r (fun e r' => SentFor template e ∧
      ∃ ticks', Rostered start (es++[e]) ticks' r') := by
  unfold envelopeForSend
  split_ifs with he
  · rw [returns_bind, nextUpdateStatePayload, returns_map]
    refine returns_mono (returns_run (drawTick_returns r h.kept.roster)) fun t r' ht => ?_
    rw [returns_pure]
    refine ⟨⟨rfl,fun hne => absurd he hne⟩,ticks++[t],?_,?_,kept_snoc ht.2 ticks h.kept⟩
    · rw [updateStates_snoc, if_pos he, h.states, List.map_append]
      rfl
    · rw [List.length_append]
      exact drawTicks_snoc _ _ _ _ _ _ h.drawn ht.1
  · rw [returns_pure]
    refine ⟨⟨rfl,fun _ => rfl⟩,ticks,?_,h.drawn,h.kept⟩
    rw [updateStates_snoc, if_neg he, List.append_nil]
    exact h.states

/-- What is sent, place by place. -/
def Plays (scenario es : List SosEnvelope) : Prop :=
  ∀ k e, es[k]? = some e → ∃ t, scenario[k%scenario.length]? = some t ∧ SentFor t e

theorem plays_snoc (scenario es : List SosEnvelope) (t e : SosEnvelope) (h : Plays scenario es)
    (ht : scenario[es.length%scenario.length]? = some t) (he : SentFor t e) :
    Plays scenario (es++[e]) := by
  intro k x hx
  rcases Nat.lt_trichotomy k es.length with hk | rfl | hk
  · rw [List.getElem?_append_left hk] at hx
    exact h k x hx
  · rw [List.getElem?_concat_length] at hx
    cases hx
    exact ⟨t,ht,he⟩
  · rw [List.getElem?_eq_none (by rw [List.length_append]; exact hk)] at hx
    cases hx

theorem sendFirst_returns (scenario : List SosEnvelope) (hs : scenario ≠ []) (seed : BitVec 64)
    (matchGuid : String) (k : ℕ) :
    Returns (sendFirst scenario k) (.new seed matchGuid) (fun es r => es.length = k ∧
      Plays scenario es ∧ ∃ ticks, Rostered (.new seed matchGuid) es ticks r) := by
  induction k with
  | zero =>
    exact (returns_pure _ _ _).mpr
      ⟨rfl,fun k e h => (by cases h),[],rfl,rfl,kept_new seed matchGuid⟩
  | succ k ih =>
    rw [sendFirst]
    refine returns_then ih fun es r hes => ?_
    obtain ⟨hlen,hplays,ticks,hticks⟩ := hes
    have hlt : k%scenario.length < scenario.length := Nat.mod_lt _ (List.length_pos_of_ne_nil hs)
    have ht : scenario[k%scenario.length]? = some scenario[k%scenario.length] :=
      List.getElem?_eq_getElem hlt
    rw [returns_bind, returns_lift]
    refine ⟨_,ht,?_⟩
    refine returns_then (envelopeForSend_returns _ _ es ticks r hticks) fun e r' he => ?_
    rw [returns_pure]
    exact ⟨by simp [hlen],plays_snoc scenario es _ e hplays (by rw [hlen]; exact ht) he.1,he.2⟩

/-! ## The main task -/

inductive MainPhase where
  | selecting
  | stopping
  | joining
  | over

structure Main where
  phase : MainPhase
  sent : ℕ
  index : ℕ
  randomizer : UpdateStateRandomizer

inductive Occurrence where
  | tick
  | signal
  | shutdownSent
  | joined

section Task

variable (cli : CliOptions) (scenario : List SosEnvelope) (write : SosEnvelope → String)

def Main.start (seed : BitVec 64) : Main :=
  ⟨.selecting,0,0,.new seed (matchGuidForScenario scenario)⟩

/-- The maximum is looked at before the end of the scenario. -/
def advanced (m : Main) (r : UpdateStateRandomizer) : Main :=
  if cli.maxEvents.any (fun max => decide (max ≤ m.sent+1)) = true then
    ⟨.stopping,m.sent+1,m.index+1,r⟩
  else if scenario.length ≤ m.index+1 then
    if cli.loopEvents = true then ⟨.selecting,m.sent+1,0,r⟩
    else ⟨.stopping,m.sent+1,m.index+1,r⟩
  else ⟨.selecting,m.sent+1,m.index+1,r⟩

/-- There is no step where the source would panic. -/
def mainTask (m : Main) : Occurrence → Option (Main × Option MainAct)
  | .tick =>
    match m.phase with
    | .selecting => scenario[m.index]?.bind (fun template =>
        (envelopeForSend template m.randomizer).map (fun p =>
          (advanced cli scenario m p.2,some (.send (write p.1)))))
    | _ => none
  | .signal =>
    match m.phase with
    | .selecting => some ({m with phase := .stopping},none)
    | _ => none
  | .shutdownSent =>
    match m.phase with
    | .stopping => some ({m with phase := .joining},some .shutdown)
    | _ => none
  | .joined =>
    match m.phase with
    | .joining => some ({m with phase := .over},some .join)
    | _ => none

inductive TaskStepped (m : Main) : Occurrence → Main → Option MainAct → Prop
  | tick (template e : SosEnvelope) (r : UpdateStateRandomizer) (hm : m.phase = .selecting)
      (ht : scenario[m.index]? = some template)
      (he : envelopeForSend template m.randomizer = some (e,r)) :
      TaskStepped m .tick (advanced cli scenario m r) (some (.send (write e)))
  | signal (hm : m.phase = .selecting) : TaskStepped m .signal {m with phase := .stopping} none
  | shutdownSent (hm : m.phase = .stopping) :
      TaskStepped m .shutdownSent {m with phase := .joining} (some .shutdown)
  | joined (hm : m.phase = .joining) :
      TaskStepped m .joined {m with phase := .over} (some .join)

theorem task_cases (m : Main) (o : Occurrence) (m' : Main) (a : Option MainAct)
    (h : mainTask cli scenario write m o = some (m',a)) :
    TaskStepped cli scenario write m o m' a := by
  cases o with
  | tick =>
    simp only [mainTask] at h
    split at h
    · next hm =>
      obtain ⟨template,ht,h⟩ := Option.bind_eq_some_iff.mp h
      obtain ⟨⟨e,r⟩,he,h⟩ := Option.map_eq_some_iff.mp h
      cases h
      exact .tick template e r hm ht he
    · cases h
  | signal =>
    simp only [mainTask] at h
    split at h
    · next hm =>
      cases h
      exact .signal hm
    · cases h
  | shutdownSent =>
    simp only [mainTask] at h
    split at h
    · next hm =>
      cases h
      exact .shutdownSent hm
    · cases h
  | joined =>
    simp only [mainTask] at h
    split at h
    · next hm =>
      cases h
      exact .joined hm
    · cases h

/-- Where the scenario stands: in the course of it, at the place the number of
sends says; and never further than its limits. -/
structure Placed (m : Main) : Prop where
  index : m.phase = .selecting → m.index = m.sent%scenario.length
  once : cli.loopEvents = false → m.sent ≤ scenario.length ∧
    (m.phase = .selecting → m.sent < scenario.length)
  limit : ∀ n ∈ cli.maxEvents, m.sent ≤ max n 1 ∧ (m.phase = .selecting → m.sent < max n 1)

theorem advanced_placed (hs : scenario ≠ []) (m : Main) (r : UpdateStateRandomizer)
    (hphase : m.phase = .selecting) (hm : Placed cli scenario m) :
    Placed cli scenario (advanced cli scenario m r) := by
  have hpos := List.length_pos_of_ne_nil hs
  have hindex := hm.index hphase
  have hlt : m.sent%scenario.length < scenario.length := Nat.mod_lt _ hpos
  have hsent : (advanced cli scenario m r).sent = m.sent+1 := by
    unfold advanced
    split_ifs <;> rfl
  refine ⟨?_,?_,?_⟩
  · rw [hsent, Nat.add_mod, ← hindex]
    unfold advanced
    split_ifs with hmax hend hloop
    · intro h
      cases h
    · intro _
      have hlast : m.index+1 = scenario.length := by omega
      by_cases hone : scenario.length = 1
      · simp [hone, Nat.mod_one]
      · rw [Nat.mod_eq_of_lt (by omega : 1 < scenario.length), hlast, Nat.mod_self]
    · intro h
      cases h
    · intro _
      rw [Nat.mod_eq_of_lt (by omega : 1 < scenario.length), Nat.mod_eq_of_lt (by omega)]
  · intro hloop
    have hbefore := (hm.once hloop).2 hphase
    rw [hsent]
    refine ⟨hbefore,?_⟩
    unfold advanced
    rw [if_neg (by simp [hloop] : ¬ cli.loopEvents = true)]
    split_ifs with hmax hend
    · intro h
      cases h
    · intro h
      cases h
    · intro _
      rw [Nat.mod_eq_of_lt hbefore] at hindex
      omega
  · intro n hmem
    have hbefore := (hm.limit n hmem).2 hphase
    rw [hsent]
    refine ⟨hbefore,?_⟩
    have hany : cli.maxEvents.any (fun max => decide (max ≤ m.sent+1)) = decide (n ≤ m.sent+1) := by
      rw [Option.mem_def.mp hmem]
      rfl
    unfold advanced
    rw [hany]
    split_ifs with hmax hend hloop
    · intro h
      cases h
    all_goals
      intro h
      have hmore : ¬ n ≤ m.sent+1 := by simpa using hmax
      exact lt_of_lt_of_le (Nat.lt_of_not_le hmore) (le_max_left n 1)

/-- The reasons to stop sending. -/
def StopsFor (past : List Occurrence) (sent : ℕ) : Prop :=
  .signal ∈ past ∨ (∃ n ∈ cli.maxEvents, n ≤ sent) ∨
    (cli.loopEvents = false ∧ sent = scenario.length)

/-- What a run of the main task has sent, and where it is. -/
structure Played (seed : BitVec 64) (past : List Occurrence) (emitted : List MainAct) (m : Main) :
    Prop where
  sent : ∃ es, sendFirst scenario m.sent (.new seed (matchGuidForScenario scenario)) =
    some (es,m.randomizer) ∧ payloads emitted = es.map write
  placed : Placed cli scenario m
  signalled : signals emitted = true → m.phase = .joining ∨ m.phase = .over
  stopped : m.phase ≠ .selecting → StopsFor cli scenario past m.sent

theorem stopsFor_more (past : List Occurrence) (sent : ℕ) (o : Occurrence)
    (h : StopsFor cli scenario past sent) : StopsFor cli scenario (past++[o]) sent :=
  h.imp_left (fun hmem => List.mem_append_left _ hmem)

theorem quiet_played (seed : BitVec 64) (past : List Occurrence) (emitted : List MainAct)
    (m : Main) (o : Occurrence) (p : MainPhase) (a : Option MainAct)
    (hm : Played cli scenario write seed past emitted m)
    (ha : payloads a.toList = []) (hp : p ≠ .selecting)
    (hsignal : signals (emitted++a.toList) = true → p = .joining ∨ p = .over)
    (hstop : StopsFor cli scenario (past++[o]) m.sent) :
    Played cli scenario write seed (past++[o]) (emitted++a.toList) {m with phase := p} := by
  obtain ⟨es,hes,hpay⟩ := hm.sent
  refine ⟨⟨es,hes,?_⟩,⟨fun h => absurd h hp,?_,?_⟩,hsignal,fun _ => hstop⟩
  · rw [payloads_append, ha, List.append_nil]
    exact hpay
  · exact fun h => ⟨(hm.placed.once h).1,fun h' => absurd h' hp⟩
  · exact fun n h => ⟨(hm.placed.limit n h).1,fun h' => absurd h' hp⟩

theorem advanced_stops (past : List Occurrence) (m : Main) (r : UpdateStateRandomizer)
    (hphase : m.phase = .selecting) (hm : Placed cli scenario m)
    (h : (advanced cli scenario m r).phase ≠ .selecting) :
    StopsFor cli scenario past (advanced cli scenario m r).sent := by
  unfold advanced at h ⊢
  split_ifs at h ⊢ with hmax hend hloop
  · cases hn : cli.maxEvents with
    | none =>
      rw [hn] at hmax
      cases hmax
    | some n =>
      rw [hn] at hmax
      exact .inr (.inl ⟨n,Option.mem_def.mpr hn,of_decide_eq_true hmax⟩)
  · exact absurd rfl h
  · have hfalse : cli.loopEvents = false := by simpa using hloop
    have hlt := (hm.once hfalse).2 hphase
    have hindex := hm.index hphase
    rw [Nat.mod_eq_of_lt hlt] at hindex
    exact .inr (.inr ⟨hfalse,by change m.sent+1 = _; omega⟩)
  · exact absurd rfl h

theorem task_played (hs : scenario ≠ []) (seed : BitVec 64) (past : List Occurrence)
    (emitted : List MainAct) (m : Main) (o : Occurrence) (r : Main × Option MainAct)
    (hm : Played cli scenario write seed past emitted m)
    (h : mainTask cli scenario write m o = some r) :
    Played cli scenario write seed (past++[o]) (emitted++r.2.toList) r.1 := by
  obtain ⟨m',a⟩ := r
  cases task_cases cli scenario write m o m' a h with
  | tick template e r hphase ht he =>
    obtain ⟨es,hes,hpay⟩ := hm.sent
    have hsent : (advanced cli scenario m r).sent = m.sent+1 ∧
        (advanced cli scenario m r).randomizer = r := by
      unfold advanced
      split_ifs <;> exact ⟨rfl,rfl⟩
    refine ⟨⟨es++[e],?_,?_⟩,advanced_placed cli scenario hs m r hphase hm.placed,?_,
      advanced_stops cli scenario _ m r hphase hm.placed⟩
    · rw [hm.placed.index hphase] at ht
      rw [hsent.1, hsent.2, sendFirst]
      change (sendFirst scenario m.sent _).bind _ = _
      rw [hes]
      change (liftM (scenario[m.sent%scenario.length]?) >>= _ : Gen _) m.randomizer = _
      rw [ht]
      change (envelopeForSend template m.randomizer).bind _ = _
      rw [he]
      rfl
    · rw [payloads_append, hpay, List.map_append]
      rfl
    · intro hsig
      rw [signals_append] at hsig
      have hbefore : signals emitted = true := by simpa [signals] using hsig
      rcases hm.signalled hbefore with h | h <;> rw [hphase] at h <;> cases h
  | signal hphase =>
    refine quiet_played cli scenario write seed past emitted m _ _ none hm rfl
      MainPhase.noConfusion ?_ (.inl (by simp))
    intro hsig
    rw [Option.toList_none, List.append_nil] at hsig
    rcases hm.signalled hsig with h | h <;> rw [hphase] at h <;> cases h
  | shutdownSent hphase =>
    exact quiet_played cli scenario write seed past emitted m _ _ _ hm rfl MainPhase.noConfusion
      (fun _ => .inl rfl)
      (stopsFor_more cli scenario past _ _ (hm.stopped (by rw [hphase]; exact MainPhase.noConfusion)))
  | joined hphase =>
    exact quiet_played cli scenario write seed past emitted m _ _ _ hm rfl MainPhase.noConfusion
      (fun _ => .inr rfl)
      (stopsFor_more cli scenario past _ _ (hm.stopped (by rw [hphase]; exact MainPhase.noConfusion)))

theorem start_played (hs : scenario ≠ []) (seed : BitVec 64) :
    Played cli scenario write seed [] [] (.start scenario seed) where
  sent := ⟨[],rfl,rfl⟩
  placed :=
    { index := fun _ => (Nat.zero_mod _).symm
      once := fun _ => ⟨Nat.zero_le _,fun _ => List.length_pos_of_ne_nil hs⟩
      limit := fun n _ => ⟨Nat.zero_le _,fun _ => lt_of_lt_of_le Nat.zero_lt_one (le_max_right n 1)⟩ }
  signalled h := by cases h
  stopped h := absurd rfl h

theorem produce_played (hs : scenario ≠ []) (seed : BitVec 64) (os : List Occurrence) (m : Main)
    (emitted : List MainAct)
    (h : produce (mainTask cli scenario write) (.start scenario seed) os = some (m,emitted)) :
    Played cli scenario write seed os emitted m :=
  produce_history (mainTask cli scenario write) (Played cli scenario write seed)
    (task_played cli scenario write hs seed) [] [] _ os m emitted
    (start_played cli scenario write hs seed) h

/-- While it sends, the next tick sends: it neither leaves the scenario nor
fails to draw. -/
theorem tick_possible (hs : scenario ≠ []) (seed : BitVec 64) (past : List Occurrence)
    (emitted : List MainAct) (m : Main) (hm : Played cli scenario write seed past emitted m)
    (hphase : m.phase = .selecting) :
    ∃ m' payload, mainTask cli scenario write m .tick = some (m',some (.send payload)) := by
  obtain ⟨es,hes,_⟩ := hm.sent
  obtain ⟨es',r',hes',hlen,_,ticks,hticks⟩ :=
    sendFirst_returns scenario hs seed (matchGuidForScenario scenario) m.sent
  rw [hes] at hes'
  cases hes'
  have hlt : m.index < scenario.length := by
    rw [hm.placed.index hphase]
    exact Nat.mod_lt _ (List.length_pos_of_ne_nil hs)
  obtain ⟨e,r,he,_⟩ := envelopeForSend_returns scenario[m.index] _ es ticks m.randomizer hticks
  refine ⟨advanced cli scenario m r,write e,?_⟩
  simp only [mainTask, hphase]
  rw [List.getElem?_eq_getElem hlt, Option.bind_some, he]
  rfl

/-! ## Runs of the server -/

variable (capacity : ℕ)

/-- A run of the server for a scenario, from a seed. -/
def Runs (seed : BitVec 64) (acts : List (Act Occurrence)) (s : System Main) : Prop :=
  run (step (mainTask cli scenario write) capacity) ⟨.start scenario seed,.new⟩ acts = some s

theorem run_played (hs : scenario ≠ []) (seed : BitVec 64) (acts : List (Act Occurrence))
    (s : System Main) (h : Runs cli scenario write capacity seed acts s) :
    ∃ emitted, Produced (mainTask cli scenario write) (.start scenario seed) acts s emitted ∧
      Played cli scenario write seed (occurrences acts) emitted s.main := by
  obtain ⟨emitted,hp⟩ := run_produced (mainTask cli scenario write) capacity _ acts s h
  exact ⟨emitted,hp,produce_played cli scenario write hs seed _ _ _ hp.produced⟩

/-- What is offered in a run of the server: the envelopes of the sends so far. -/
theorem run_offered (hs : scenario ≠ []) (seed : BitVec 64) (acts : List (Act Occurrence))
    (s : System Main) (h : Runs cli scenario write capacity seed acts s) :
    ∃ es, s.server.outgoing.offered = es.map write ∧ es.length = s.main.sent ∧
      Plays scenario es ∧
      ∃ ticks r, Rostered (.new seed (matchGuidForScenario scenario)) es ticks r := by
  obtain ⟨emitted,hp,hplayed⟩ := run_played cli scenario write capacity hs seed acts s h
  obtain ⟨es,hes,hpay⟩ := hplayed.sent
  obtain ⟨es',r,hes',hlen,hplays,ticks,hticks⟩ :=
    sendFirst_returns scenario hs seed (matchGuidForScenario scenario) s.main.sent
  rw [hes] at hes'
  cases hes'
  exact ⟨es,hp.offered.trans hpay,hlen,hplays,ticks,_,hticks⟩

/-- For every seed and every order of the tasks: the sends go round the chosen
scenario, each of them its template or the next update state that the
generator draws; they stop only for the signal, the maximum or the end of a
scenario that is played once, and at none of them does the server panic. -/
theorem scenario_played (templates : List SosEnvelope) (ht : templates ≠ [])
    (hsel : selectScenario templates cli.eventFilters = .ok scenario) (seed : BitVec 64)
    (acts : List (Act Occurrence)) (s : System Main)
    (h : Runs cli scenario write capacity seed acts s) :
    (∃ es ticks r, s.server.outgoing.offered = es.map write ∧ es.length = s.main.sent ∧
      Plays scenario es ∧ updateStates es = ticks.map Tick.payload ∧
      drawTicks ticks.length (.new seed (matchGuidForScenario scenario)) = some (ticks,r)) ∧
    (cli.loopEvents = false → s.main.sent ≤ scenario.length) ∧
    (∀ n ∈ cli.maxEvents, s.main.sent ≤ max n 1) ∧
    (s.main.phase ≠ .selecting → StopsFor cli scenario (occurrences acts) s.main.sent) ∧
    (s.main.phase = .selecting →
      ∃ s', step (mainTask cli scenario write) capacity s (.main .tick) = some s') := by
  have hs := selected_nonempty templates scenario cli.eventFilters hsel ht
  obtain ⟨emitted,hp,hplayed⟩ := run_played cli scenario write capacity hs seed acts s h
  obtain ⟨es,hoffered,hlen,hplays,ticks,r,hticks⟩ :=
    run_offered cli scenario write capacity hs seed acts s h
  refine ⟨⟨es,ticks,r,hoffered,hlen,hplays,hticks.states,hticks.drawn⟩,fun hl => (hplayed.placed.once hl).1,
    fun n hn => (hplayed.placed.limit n hn).1,hplayed.stopped,?_⟩
  intro hphase
  obtain ⟨m',payload,hm'⟩ := tick_possible cli scenario write hs seed _ emitted s.main hplayed hphase
  refine ⟨⟨m',{s.server with outgoing := s.server.outgoing.send s.server.receivers payload}⟩,?_⟩
  rw [step, hm']
  rfl

def plainTemplates : List SosEnvelope := [⟨"game:ball_hit",.null⟩,⟨"game:replay_start",.null⟩]

def plainOptions : CliOptions := ⟨"0.0.0.0",49122,1000,none,[],true,false⟩

def threeTicks : List (Act Occurrence) := [.main .tick,.main .tick,.main .tick]

theorem plain_played : ∃ s, Runs plainOptions plainTemplates SosEnvelope.event 1024 7 threeTicks s ∧
    s.server.outgoing.offered = ["game:ball_hit","game:replay_start","game:ball_hit"] ∧
    ∃ es ticks r, s.server.outgoing.offered = es.map SosEnvelope.event ∧
      es.length = s.main.sent ∧ Plays plainTemplates es ∧
      updateStates es = ticks.map Tick.payload ∧
      drawTicks ticks.length (.new 7 (matchGuidForScenario plainTemplates)) = some (ticks,r) :=
  ⟨_,rfl,rfl,(scenario_played plainOptions plainTemplates SosEnvelope.event 1024 plainTemplates
    (List.cons_ne_nil _ _) rfl 7 threeTicks _ rfl).1⟩

/-- The update states that a client is written are some of those that the
generator draws from the seed, in their order; all of its run keep the roster,
whatever is sent between them. -/
theorem clients_roster_kept (hs : scenario ≠ []) (seed : BitVec 64) (acts : List (Act Occurrence))
    (s : System Main) (h : Runs cli scenario write capacity seed acts s) :
    ∃ es ticks r, s.server.outgoing.offered = es.map write ∧
      updateStates es = ticks.map Tick.payload ∧
      drawTicks ticks.length (.new seed (matchGuidForScenario scenario)) = some (ticks,r) ∧
      (∀ before t after, ticks = before++t::after → RosterTick before t) ∧
      ∀ c ∈ s.server.clients, ∃ seen, seen.Sublist (es.drop c.receiver.first) ∧
        c.written = seen.map write ∧ (updateStates seen).Sublist (ticks.map Tick.payload) := by
  obtain ⟨es,hoffered,_,_,ticks,r,hticks⟩ :=
    run_offered cli scenario write capacity hs seed acts s h
  refine ⟨es,ticks,r,hoffered,hticks.states,hticks.drawn,hticks.kept.each,?_⟩
  intro c hc
  have hsub := kept_sublist capacity _ c
    ((run_kept (mainTask cli scenario write) capacity _ acts s h).clients c hc)
  rw [hoffered, ← List.map_drop] at hsub
  obtain ⟨seen,hseen,hw⟩ := List.sublist_map_iff.mp hsub
  refine ⟨seen,hseen,hw,?_⟩
  rw [← hticks.states]
  exact ((hseen.trans (List.drop_sublist _ _)).filter _).map _

end Task

def drawnScenario : List SosEnvelope := [⟨"game:update_state",.null⟩]

/-- A client comes before two ticks and is written the first of them. -/
def drawnActs : List (Act Occurrence) :=
  [.task .accept,.main .tick,.task (.client 0 .upgraded),.main .tick,.task (.client 0 .recv),
   .task (.client 0 .sent)]

theorem drawn_roster : ∃ s, Runs plainOptions drawnScenario SosEnvelope.event 1024 7 drawnActs s ∧
    s.server.clients.map Client.written = [["game:update_state"]] ∧
    ∃ es ticks r, s.server.outgoing.offered = es.map SosEnvelope.event ∧
      updateStates es = ticks.map Tick.payload ∧
      drawTicks ticks.length (.new 7 (matchGuidForScenario drawnScenario)) = some (ticks,r) ∧
      (∀ before t after, ticks = before++t::after → RosterTick before t) ∧
      ∀ c ∈ s.server.clients, ∃ seen, seen.Sublist (es.drop c.receiver.first) ∧
        c.written = seen.map SosEnvelope.event ∧
        (updateStates seen).Sublist (ticks.map Tick.payload) := by
  have hrun : (run (step (mainTask plainOptions drawnScenario SosEnvelope.event) 1024)
      ⟨.start drawnScenario 7,.new⟩ drawnActs).map (fun s => s.server.clients.map Client.written) =
        some [["game:update_state"]] := by decide +kernel
  obtain ⟨s,hs,hw⟩ := Option.map_eq_some_iff.mp hrun
  exact ⟨s,hs,hw,clients_roster_kept plainOptions drawnScenario SosEnvelope.event 1024
    (List.cons_ne_nil _ _) 7 drawnActs s hs⟩

end RlStatsApi.MockServer
